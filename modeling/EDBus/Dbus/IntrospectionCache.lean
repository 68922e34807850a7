import EDBus.Dbus.InterfaceLifetime

/-!
# The cached introspection data

An object is not told when a method or signal is added to one of its interfaces.
Its cache is never used all the same: attaching an interface sets
`introspection_dirty`, which nothing clears, and an object without interfaces is
not asked.
-/

namespace EDBus.Dbus.Exported

variable {Fn : Type} {state : State Fn}

/-- The text that `cb_introspect` replies, if it is what the message is dispatched to. -/
def introspectReply (state : State Fn) (obj : ObjectId) (message : Message) : Option String :=
  match state.objects obj with
  | none => none
  | some object =>
    match called state object message with
    | some [.introspect] => some (cbIntrospect state object).2
    | _ => none

/-- An object that has interfaces renders them anew. -/
def Object.Renders (object : Object Fn) : Prop := object.interfaces ≠ [] → object.introspectionDirty = true

/-- Every object does. -/
def Dirty (state : State Fn) : Prop := ∀ obj object, state.objects obj = some object → object.Renders

theorem Dirty.of_objects (dirty : Dirty state) {after : State Fn} (same : after.objects = state.objects) :
    Dirty after := by
  intro obj object found
  rw [same] at found
  exact dirty obj object found

theorem Dirty.setObject (dirty : Dirty state) (obj : ObjectId) {value : Option (Object Fn)}
    (renders : ∀ object, value = some object → object.Renders) : Dirty (state.setObject obj value) := by
  intro other object found
  by_cases here : other = obj
  · simp only [State.setObject, here, Function.update_self] at found
    exact renders object found
  · simp only [State.setObject, ne_eq, here, not_false_eq_true, Function.update_of_ne] at found
    exact dirty other object found

theorem interfaceMethodAdd_objects (state : State Fn) (iface : InterfaceId)
    (member signature replySignature : Option String) (func : Option (Func Fn)) :
    (interfaceMethodAdd state iface member signature replySignature func).objects = state.objects := by
  unfold interfaceMethodAdd
  split
  · rfl
  · split <;> rfl

theorem interfaceSignalAdd_objects (state : State Fn) (iface : InterfaceId) (name signature : Option String) :
    (interfaceSignalAdd state iface name signature).objects = state.objects := by
  unfold interfaceSignalAdd
  split
  · rfl
  · split <;> rfl

/-- Whoever changes a list sets the flag. -/
theorem Edit.dirty (before next : State Fn) (dirty : Dirty before) (edit : Edit before next) : Dirty next := by
  cases edit with
  | touch => exact dirty.of_objects rfl
  | recount _ _ => exact dirty.of_objects rfl
  | free _ => exact dirty.of_objects rfl
  | relist _ _ =>
      apply dirty.setObject
      rintro _ ⟨⟩ _
      rfl
  | forget obj =>
      apply dirty.setObject
      rintro _ ⟨⟩

theorem Dirty.edited (dirty : Dirty state) {after : State Fn} (edited : Edited state after) : Dirty after :=
  edited.invariant Edit.dirty dirty

theorem objectAdd_dirty (dirty : Dirty state) (path : String) (registered : Bool) :
    Dirty (objectAdd state path registered) := by
  rcases objectAdd_edited state path registered with unchanged | edited
  · rw [unchanged]
    exact dirty
  · have bare : Dirty (state.setObject state.nextObject (some ⟨path, [], none, false, none, none⟩)) := by
      apply dirty.setObject
      rintro _ ⟨⟩ attached
      exact absurd rfl attached
    have added : Dirty (state.addObject ⟨path, [], none, false, none, none⟩) := bare.of_objects rfl
    exact added.edited edited

theorem mapObject_dirty (dirty : Dirty state) (obj : ObjectId) {change : Object Fn → Object Fn}
    (renders : ∀ object, object.Renders → (change object).Renders) : Dirty (state.mapObject obj change) := by
  apply dirty.setObject
  intro object isChanged
  obtain ⟨before, found, rfl⟩ := Option.map_eq_some_iff.mp isChanged
  exact renders before (dirty obj before found)

theorem cbIntrospect_renders {object : Object Fn} (renders : object.Renders) :
    (cbIntrospect state object).1.Renders := by
  unfold cbIntrospect
  split <;> exact renders

theorem step_dirty (label : Label Fn) {next : State Fn} (dirty : Dirty state) (stepped : step state label = some next) :
    Dirty next := by
  cases step_cases stepped with
  | objectInit _ _ =>
      refine dirty.of_objects ?_
      simp only [objectInit, interfaceMethodAdd_objects, interfaceNew]
  | objectShutdown _ _ =>
      refine dirty.of_objects ?_
      simp only [objectShutdown, giveBack, interfaceUnref_objects]
  | interfaceUnnamed => exact dirty
  | interfaceNew name => exact dirty.of_objects rfl
  | interfaceRef _ => exact dirty.of_objects (interfaceRef_objects state _)
  | interfaceUnref _ => exact dirty.of_objects (interfaceUnref_objects state _)
  | interfaceMethodAdd _ member signature replySignature _ =>
      exact dirty.of_objects (interfaceMethodAdd_objects state _ member signature replySignature _)
  | interfaceSignalAdd _ name signature => exact dirty.of_objects (interfaceSignalAdd_objects state _ name signature)
  | interfaceAttach _ _ => exact dirty.edited (interfaceAttach_edited state _ _)
  | interfaceDetach _ _ => exact dirty.edited (interfaceDetach_edited state _ _)
  | objectAdd path registered => exact objectAdd_dirty dirty path registered
  | objectFree _ => exact dirty.edited (objectFree_edited state _)
  | @propertyGetCbSet obj object _ _ =>
      exact mapObject_dirty (dirty.edited (attachProperties_edited state obj object)) obj fun _ renders => renders
  | @propertySetCbSet obj object _ _ =>
      exact mapObject_dirty (dirty.edited (attachProperties_edited state obj object)) obj fun _ renders => renders
  | @introspected obj object _ found _ =>
      apply dirty.setObject
      rintro _ ⟨⟩
      exact cbIntrospect_renders (dirty obj object found)
  | served _ _ => exact dirty

/-- A message is dispatched to nobody by an object without interfaces. -/
theorem called_of_bare {object : Object Fn} (bare : object.interfaces = []) (message : Message) :
    called state object message = some [] := by
  have none : (state.dispatched object).interfaces = [] := by
    simp [State.dispatched, State.attached, bare]
  rw [called, Object.handler, none]
  unfold Object.methodFind
  cases message.member <;> rfl

/-- Whatever was attached, detached and added before, the reply to `Introspect`
is the rendering of the interfaces that the object has when it is asked. -/
theorem introspect_fresh {labels : List (Label Fn)} {finish : State Fn}
    (executed : machine.exec State.initial labels = some finish) {obj : ObjectId} {object : Object Fn}
    (found : finish.objects obj = some object) {message : Message} {text : String}
    (replied : introspectReply finish obj message = some text) :
    text = objectIntrospect object.path (finish.attached object) := by
  have preserved : ∀ (before : State Fn) label next, Dirty before →
      machine.step before label = some next → Dirty next :=
    fun _ label _ dirty stepped => step_dirty label dirty stepped
  have dirty : Dirty finish := Semantics.Machine.Reachable.invariant preserved (by intro _ _ none; cases none)
    ⟨labels, executed⟩
  rw [introspectReply, found] at replied
  simp only at replied
  split at replied
  · next isCalled =>
      have attached : object.interfaces ≠ [] := by
        intro bare
        rw [called_of_bare bare] at isCalled
        cases isCalled
      obtain rfl := Option.some.inj replied
      simp only [cbIntrospect, dirty obj object found attached]
  · cases replied

/-- A call of `Introspect`. -/
def introspectCall : Message := ⟨some ":1.7", some "/org/example", some introspectableName, some "Introspect", []⟩

/-- A method is added to an interface after the object was asked. -/
def lateMethodRun : List (Label Unit) :=
  [.objectInit, .objectAdd "/org/example" true, .interfaceNew (some "org.example.Clock"), .interfaceAttach 0 (some 2),
    .call 0 introspectCall, .interfaceMethodAdd 2 (some "Set") (some "t") none (some ())]

theorem introspectReply_of_called {obj : ObjectId} {object : Object Fn} {message : Message}
    (found : state.objects obj = some object) (isCalled : called state object message = some [.introspect]) :
    introspectReply state obj message = some (cbIntrospect state object).2 := by
  simp only [introspectReply, found, isCalled]

theorem introspect_fresh_late : ∃ finish object text, machine.exec State.initial lateMethodRun = some finish ∧
    finish.objects 0 = some object ∧ introspectReply finish 0 introspectCall = some text ∧
      text = objectIntrospect object.path (finish.attached object) := by
  have executed : machine.exec State.initial lateMethodRun = some _ := rfl
  refine ⟨_, _, _, executed, rfl, introspectReply_of_called rfl rfl, ?_⟩
  exact @introspect_fresh _ _ _ executed 0 _ rfl introspectCall _ (introspectReply_of_called rfl rfl)

end EDBus.Dbus.Exported
