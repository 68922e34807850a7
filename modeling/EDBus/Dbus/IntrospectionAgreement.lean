import EDBus.Dbus.IntrospectionListing
import EDBus.Semantics.Keyed

/-!
# Introspection and dispatch

The introspection data lists every method of every interface, dispatch takes the
first one with the member. `e_dbus_interface_method_add` takes a member that the
interface has already, and then the two differ (`FirstDeclared`).
-/

open EDBus.Semantics

namespace EDBus.Dbus.Exported

variable {Fn : Type} {state : State Fn}

/-! ## Names and signatures -/

/-- What `method_add` and `signal_add` accept, with names as D-Bus has them. -/
structure Interface.Proper {Func : Type} (iface : Interface Func) : Prop where
  written : iface.Written
  signatures : ∀ method ∈ iface.methods, ∀ signature, method.signature = some signature →
    Signature.validate signature = true

/-- All interfaces are proper, and all paths are written as paths. -/
structure Proper (state : State Fn) : Prop where
  interfaces : ∀ iface interface, state.interfaces iface = some interface → interface.Proper
  paths : ∀ obj object, state.objects obj = some object → Plain object.path

/-- The names in a call are names: they have no quotes and no line ends. -/
def Label.Named : Label Fn → Prop
  | .interfaceNew name => ∀ text, name = some text → Plain text
  | .interfaceMethodAdd _ member _ _ _ => ∀ text, member = some text → Plain text
  | .interfaceSignalAdd _ name _ => ∀ text, name = some text → Plain text
  | .objectAdd path _ => Plain path
  | _ => True

/-- Another count for an interface is of no interest to a reader. -/
theorem Interface.Proper.recount {Func : Type} {iface : Interface Func} (proper : iface.Proper) (refcount : Int) :
    Interface.Proper { iface with refcount := refcount } where
  written := ⟨proper.written.name, proper.written.methods, proper.written.signals⟩
  signatures := proper.signatures

namespace Proper

theorem of_same (proper : Proper state) {after : State Fn} (interfaces : after.interfaces = state.interfaces)
    (objects : after.objects = state.objects) : Proper after where
  interfaces iface interface found := proper.interfaces iface interface (interfaces ▸ found)
  paths obj object found := proper.paths obj object (objects ▸ found)

theorem setInterface (proper : Proper state) (iface : InterfaceId) {value : Option (Interface (Func Fn))}
    (changed : ∀ interface, value = some interface → interface.Proper) :
    Proper (state.setInterface iface value) where
  interfaces other interface found := by
    by_cases here : other = iface
    · simp only [State.setInterface, here, Function.update_self] at found
      exact changed interface found
    · simp only [State.setInterface, ne_eq, here, not_false_eq_true, Function.update_of_ne] at found
      exact proper.interfaces other interface found
  paths := proper.paths

theorem setObject (proper : Proper state) (obj : ObjectId) {value : Option (Object Fn)}
    (changed : ∀ object, value = some object → Plain object.path) : Proper (state.setObject obj value) where
  interfaces := proper.interfaces
  paths other object found := by
    by_cases here : other = obj
    · simp only [State.setObject, here, Function.update_self] at found
      exact changed object found
    · simp only [State.setObject, ne_eq, here, not_false_eq_true, Function.update_of_ne] at found
      exact proper.paths other object found

theorem mapObject (proper : Proper state) (obj : ObjectId) {change : Object Fn → Object Fn}
    (same : ∀ object, (change object).path = object.path) : Proper (state.mapObject obj change) := by
  apply proper.setObject
  intro object isChanged
  obtain ⟨before, found, rfl⟩ := Option.map_eq_some_iff.mp isChanged
  rw [same]
  exact proper.paths obj before found

theorem interfaceNew (proper : Proper state) {name : String} (plain : Plain name) :
    Proper (interfaceNew state name).1 := by
  have added : Proper (state.setInterface state.nextInterface (some ⟨name, [], [], 1⟩)) := by
    apply proper.setInterface
    rintro _ ⟨⟩
    exact ⟨⟨plain, nofun, nofun⟩, nofun⟩
  exact added.of_same rfl rfl

theorem edit (before next : State Fn) (proper : Proper before) (edit : Edit before next) : Proper next := by
  cases edit with
  | touch => exact proper.of_same rfl rfl
  | @recount iface interface found refcount =>
      apply proper.setInterface
      rintro _ ⟨⟩
      exact (proper.interfaces iface interface found).recount refcount
  | free iface =>
      apply proper.setInterface
      rintro _ ⟨⟩
  | @relist obj object found _ =>
      apply proper.setObject
      rintro _ ⟨⟩
      exact proper.paths obj object found
  | forget obj =>
      apply proper.setObject
      rintro _ ⟨⟩

theorem edited (proper : Proper state) {after : State Fn} (edited : Edited state after) : Proper after :=
  edited.invariant edit proper

theorem giveBack (proper : Proper state) (iface : InterfaceId) : Proper (giveBack state iface) :=
  (proper.edited (interfaceUnref_edited state iface)).of_same rfl rfl

theorem methodNew_valid {member signature replySignature : Option String} {func : Option (Func Fn)}
    {method : Method (Func Fn)} (made : methodNew member signature replySignature func = some method) :
    member = some method.member ∧ ∀ text, method.signature = some text → Signature.validate text = true := by
  unfold methodNew at made
  split at made
  · split at made
    · cases made
    · next accepted =>
        split at made
        · cases made
        · cases made
          refine ⟨rfl, ?_⟩
          rintro text isSignature
          have isSignature : signature = some text := isSignature
          simpa [isSignature] using accepted
  · cases made

theorem interfaceMethodAdd (proper : Proper state) (iface : InterfaceId) {member : Option String}
    (plain : ∀ text, member = some text → Plain text) (signature replySignature : Option String)
    (func : Option (Func Fn)) : Proper (interfaceMethodAdd state iface member signature replySignature func) := by
  unfold Exported.interfaceMethodAdd
  split
  · exact proper
  · next method made =>
      obtain ⟨isMember, valid⟩ := methodNew_valid made
      split
      · exact proper.of_same rfl rfl
      · next interface found =>
          have before := proper.interfaces iface interface found
          apply proper.setInterface
          rintro _ ⟨⟩
          refine ⟨⟨before.written.name, fun other isMethod => ?_, before.written.signals⟩, fun other isMethod => ?_⟩
          · rcases List.mem_append.mp isMethod with early | isLast
            · exact before.written.methods other early
            · rw [List.mem_singleton.mp isLast]
              exact plain method.member isMember
          · rcases List.mem_append.mp isMethod with early | isLast
            · exact before.signatures other early
            · rw [List.mem_singleton.mp isLast]
              exact valid

theorem interfaceSignalAdd (proper : Proper state) (iface : InterfaceId) {name : Option String}
    (plain : ∀ text, name = some text → Plain text) (signature : Option String) :
    Proper (interfaceSignalAdd state iface name signature) := by
  unfold Exported.interfaceSignalAdd
  split
  · exact proper
  · next signal made =>
      have isName : name = some signal.name := by
        unfold signalNew at made
        split at made
        · cases made
        · split at made
          · cases made
          · cases made
            rfl
      split
      · exact proper.of_same rfl rfl
      · next interface found =>
          have before := proper.interfaces iface interface found
          apply proper.setInterface
          rintro _ ⟨⟩
          refine ⟨⟨before.written.name, before.written.methods, fun other isSignal => ?_⟩, before.signatures⟩
          rcases List.mem_append.mp isSignal with early | isLast
          · exact before.written.signals other early
          · rw [List.mem_singleton.mp isLast]
            exact plain signal.name isName

theorem objectAdd (proper : Proper state) {path : String} (plain : Plain path) (registered : Bool) :
    Proper (objectAdd state path registered) := by
  rcases objectAdd_edited state path registered with unchanged | edited
  · rw [unchanged]
    exact proper
  · have bare : Proper (state.setObject state.nextObject (some ⟨path, [], none, false, none, none⟩)) := by
      apply proper.setObject
      rintro _ ⟨⟩
      exact plain
    have added : Proper (state.addObject ⟨path, [], none, false, none, none⟩) := bare.of_same rfl rfl
    exact added.edited edited

theorem objectInit (proper : Proper state) : Proper (objectInit state) := by
  have plain : ∀ text ∈ ["Introspect", "Get", "Set", introspectableName, propertiesName], Plain text := by
    simp [Plain, introspectableName, propertiesName]
  have known : ∀ name ∈ ["Introspect", "Get", "Set"], ∀ text, some name = some text → Plain text := by
    rintro name isName _ ⟨⟩
    exact plain name (List.mem_append_left [introspectableName, propertiesName] isName)
  have created := (proper.interfaceNew (plain introspectableName (by simp))).interfaceNew
    (plain propertiesName (by simp))
  generalize isCreated : (Exported.interfaceNew (Exported.interfaceNew state introspectableName).1 propertiesName).1 =
    made at created
  have pointed : Proper { made with
      introspectable := some state.nextInterface
      properties := some (state.nextInterface + 1) } := created.of_same rfl rfl
  have introspect := pointed.interfaceMethodAdd state.nextInterface (known "Introspect" (by simp)) (some "") (some "s")
    (some .introspect)
  have get := introspect.interfaceMethodAdd (state.nextInterface + 1) (known "Get" (by simp)) (some "ss") (some "v")
    (some .propertiesGet)
  have set := get.interfaceMethodAdd (state.nextInterface + 1) (known "Set" (by simp)) (some "ssv") (some "")
    (some .propertiesSet)
  rw [← isCreated] at set
  exact set

theorem objectShutdown (proper : Proper state) (introspectable properties : InterfaceId) :
    Proper (objectShutdown state introspectable properties) := by
  have first : Proper { Exported.giveBack state introspectable with introspectable := none } :=
    (proper.giveBack introspectable).of_same rfl rfl
  exact (first.giveBack properties).of_same rfl rfl

end Proper

theorem step_proper {label : Label Fn} {next : State Fn} (named : label.Named) (proper : Proper state)
    (stepped : step state label = some next) : Proper next := by
  cases step_cases stepped with
  | objectInit _ _ => exact proper.objectInit
  | objectShutdown _ _ => exact proper.objectShutdown _ _
  | interfaceUnnamed => exact proper
  | interfaceNew name => exact proper.interfaceNew (named name rfl)
  | interfaceRef _ => exact (proper.edited (interfaceRef_edited state _)).of_same rfl rfl
  | interfaceUnref _ => exact proper.giveBack _
  | interfaceMethodAdd _ member signature replySignature func =>
      exact proper.interfaceMethodAdd _ named signature replySignature _
  | interfaceSignalAdd _ name signature => exact proper.interfaceSignalAdd _ named signature
  | interfaceAttach _ _ => exact proper.edited (interfaceAttach_edited state _ _)
  | interfaceDetach _ _ => exact proper.edited (interfaceDetach_edited state _ _)
  | objectAdd path registered => exact proper.objectAdd named registered
  | objectFree _ => exact proper.edited (objectFree_edited state _)
  | propertyGetCbSet _ func => exact (proper.edited (attachProperties_edited state _ _)).mapObject _ fun _ => rfl
  | propertySetCbSet _ func => exact (proper.edited (attachProperties_edited state _ _)).mapObject _ fun _ => rfl
  | @introspected obj object _ found _ =>
      apply proper.setObject
      rintro _ ⟨⟩
      have samePath : (cbIntrospect state object).1.path = object.path := by
        unfold cbIntrospect
        split <;> rfl
      rw [samePath]
      exact proper.paths obj object found
  | served _ _ => exact proper

theorem exec_proper {labels : List (Label Fn)} (executed : machine.exec State.initial labels = some state)
    (named : ∀ label ∈ labels, label.Named) : Proper state := by
  have initial : Proper (State.initial : State Fn) := ⟨nofun, nofun⟩
  have preserved : ∀ (before : List (Label Fn)) state label next,
      ((∀ earlier ∈ before, earlier.Named) → Proper state) → machine.step state label = some next →
        (∀ earlier ∈ before ++ [label], earlier.Named) → Proper next := by
    intro before state label next proper stepped names
    have here : label.Named := names label (List.mem_append_right _ (List.mem_singleton.mpr rfl))
    have earlier : Proper state := proper fun other isIn => names other (List.mem_append_left _ isIn)
    exact step_proper here earlier stepped
  exact Semantics.Machine.history_invariant preserved (fun _ => initial) executed named

/-! ## What is listed and what is found -/

/-- The methods of the interfaces, in the order of their lists. -/
def methodsOf {Func : Type} (interfaces : List (Interface Func)) : List (Interface Func × Method Func) :=
  interfaces.flatMap fun iface => iface.methods.map fun method => (iface, method)

/-- The methods that the introspection data of an object lists. -/
def listedEntries (state : State Fn) (object : Object Fn) : List Entry :=
  xmlEntries (objectIntrospect object.path (state.attached object))

/-- The handler calls the function, and sends no error of the signature check. -/
def Accepted (state : State Fn) (object : Object Fn) (message : Message) (func : Func Fn) : Prop :=
  ∀ (Reply : Type) (behave : Func Fn → Message → Option Reply), ∃ outcome,
    Object.handler behave (state.dispatched object) message = some outcome ∧ outcome.called = [func] ∧
      ∀ text, Object.Sent.error Object.invalidSignature text ∉ outcome.sent

/-- What is listed can be found, and a call with the listed types reaches the function of the method
that is listed there. -/
structure Agrees (state : State Fn) (object : Object Fn) : Prop where
  listed : ∀ interface member,
    (∃ entry ∈ listedEntries state object, entry.interface = interface ∧ entry.member = member) ↔
      ∃ method, Object.methodFind (state.dispatched object).interfaces (some interface) (some member) =
        some (some method)
  dispatched : ∀ (position : Nat) (entry : Entry) (iface : Interface (Func Fn)) (method : Method (Func Fn))
      (signature : String), (listedEntries state object)[position]? = some entry →
    (methodsOf (state.attached object))[position]? = some (iface, method) → method.signature = some signature →
      ∀ message : Message, message.interface = some entry.interface → message.member = some entry.member →
        message.signature = String.join entry.inTypes → Accepted state object message method.func

/-- The first method of the member has the function of every later one that declares a signature, and does
not ask for another signature. -/
def Interface.FirstDeclared {Func : Type} (iface : Interface Func) : Prop :=
  ∀ method ∈ iface.methods, ∀ signature, method.signature = some signature →
    ∀ first, (iface.methods.find? fun other => method.member == other.member) = some first →
      first.func = method.func ∧ (first.signature = none ∨ first.signature = some signature)

theorem entriesOf_eq {Func : Type} (interfaces : List (Interface Func)) :
    entriesOf interfaces = (methodsOf interfaces).map fun listed => entryOf listed.1.name listed.2 := by
  simp only [entriesOf, methodsOf, List.map_flatMap, List.map_map, Function.comp_def]

theorem mem_methodsOf {Func : Type} {interfaces : List (Interface Func)} {iface : Interface Func}
    {method : Method Func} : (iface, method) ∈ methodsOf interfaces ↔ iface ∈ interfaces ∧ method ∈ iface.methods := by
  simp only [methodsOf, List.mem_flatMap, List.mem_map, Prod.mk.injEq]
  constructor
  · rintro ⟨_, isAttached, _, isMethod, rfl, rfl⟩
    exact ⟨isAttached, isMethod⟩
  · rintro ⟨isAttached, isMethod⟩
    exact ⟨iface, isAttached, method, isMethod, rfl, rfl⟩

/-- The types that are listed for a signature make up the signature. -/
theorem listedTypes_join {signature : String} (valid : Signature.validate signature = true) :
    String.join (listedTypes (some signature)) = signature := by
  by_cases empty : signature = ""
  · rw [empty]
    rfl
  · rw [listedTypes, if_pos ⟨empty, valid⟩]
    exact Signature.completeTypes_join valid

/-- A method, as far as dispatch reads it. -/
def Method.dispatched {Func : Type} (method : Method Func) : Object.Method Func :=
  ⟨method.member, method.signature, method.func⟩

theorem methodFind_dispatched (state : State Fn) (object : Object Fn) (interface member : String) :
    Object.methodFind (state.dispatched object).interfaces (some interface) (some member) =
      some (((((state.attached object).filter fun iface => interface == iface.name).flatMap
        Interface.methods).find? fun method => member == method.member).map Method.dispatched) := by
  have methods : ∀ iface : Interface (Func Fn), iface.dispatched.methods = iface.methods.map Method.dispatched :=
    fun _ => rfl
  simp only [Object.methodFind, Object.search_eq_find, State.dispatched, List.filter_map, List.flatMap_map, methods,
    ← List.map_flatMap, List.find?_map]
  rfl

/-- A call of an attached interface is dispatched to its first method of the member. -/
theorem methodFind_attached {object : Object Fn} (distinct : ((state.attached object).map Interface.name).Nodup)
    {iface : Interface (Func Fn)} (isAttached : iface ∈ state.attached object) (member : String) :
    Object.methodFind (state.dispatched object).interfaces (some iface.name) (some member) =
      some ((iface.methods.find? fun method => member == method.member).map Method.dispatched) := by
  rw [methodFind_dispatched, Keyed.filter_key distinct isAttached, List.flatMap_singleton]

/-- A found method is called unless it asks for another signature. -/
theorem methodCall_called_iff {Func Reply : Type} (behave : Func → Message → Option Reply) (message : Message)
    (method : Object.Method Func) (func : Func) :
    ((Object.methodCall behave message (some method)).called = [func] ∧
      ∀ text, Object.Sent.error Object.invalidSignature text ∉ (Object.methodCall behave message (some method)).sent) ↔
    method.func = func ∧ (method.signature = none ∨ method.signature = some message.signature) := by
  have exactly := Object.methodCall_exact behave message (some method)
  by_cases admitted : method.signature = none ∨ method.signature = some message.signature
  · simp only [if_pos admitted] at exactly
    rw [exactly, and_iff_left admitted]
    constructor
    · rintro ⟨isCalled, -⟩
      exact (List.cons.inj isCalled).1
    · rintro rfl
      refine ⟨rfl, fun text isSent => ?_⟩
      cases answer : behave method.func message with
      | none => simp [answer] at isSent
      | some reply => simp [answer] at isSent
  · simp only [if_neg admitted] at exactly
    obtain ⟨text, rejected⟩ := exactly
    rw [rejected]
    refine iff_of_false ?_ fun accepted => admitted accepted.2
    rintro ⟨isCalled, -⟩
    cases isCalled

/-- A call of a method that an attached interface has is accepted by the first one of the member. -/
theorem accepted_iff {object : Object Fn} (distinct : ((state.attached object).map Interface.name).Nodup)
    {iface : Interface (Func Fn)} (isAttached : iface ∈ state.attached object) {message : Message} {member : String}
    (isInterface : message.interface = some iface.name) (isMember : message.member = some member)
    {first : Method (Func Fn)} (isFirst : (iface.methods.find? fun method => member == method.member) = some first)
    (func : Func Fn) : Accepted state object message func ↔
      first.func = func ∧ (first.signature = none ∨ first.signature = some message.signature) := by
  have handled : ∀ (Reply : Type) (behave : Func Fn → Message → Option Reply),
      Object.handler behave (state.dispatched object) message =
        some (Object.methodCall behave message (some first.dispatched)) := by
    intro Reply behave
    rw [Object.handler, isInterface, isMember, methodFind_attached distinct isAttached, isFirst]
    rfl
  constructor
  · intro accepted
    obtain ⟨outcome, isOutcome, served⟩ := accepted Unit fun _ _ => none
    obtain rfl := Option.some.inj ((handled _ _).symm.trans isOutcome)
    exact (methodCall_called_iff _ message first.dispatched func).mp served
  · intro admitted Reply behave
    exact ⟨_, handled Reply behave, (methodCall_called_iff behave message first.dispatched func).mpr admitted⟩

/-! ## Agreement -/

theorem Proper.attached (proper : Proper state) (object : Object Fn) :
    ∀ iface ∈ state.attached object, iface.Proper := by
  intro iface isAttached
  obtain ⟨id, -, found⟩ := List.mem_filterMap.mp isAttached
  exact proper.interfaces id iface found

theorem listedEntries_eq (proper : Proper state) {object : Object Fn} (plain : Plain object.path) :
    listedEntries state object =
      (methodsOf (state.attached object)).map fun listed => entryOf listed.1.name listed.2 := by
  have written : ∀ iface ∈ state.attached object, iface.Written := fun iface isAttached =>
    (proper.attached object iface isAttached).written
  rw [listedEntries, xmlEntries_objectIntrospect plain written, entriesOf_eq]

/-- The members that are listed are those that are found, whatever the interfaces are. -/
theorem listed_iff_found (proper : Proper state) {object : Object Fn} (plain : Plain object.path)
    (interface member : String) :
    (∃ entry ∈ listedEntries state object, entry.interface = interface ∧ entry.member = member) ↔
      ∃ method, Object.methodFind (state.dispatched object).interfaces (some interface) (some member) =
        some (some method) := by
  have isFound : (∃ method, Object.methodFind (state.dispatched object).interfaces (some interface) (some member) =
      some (some method)) ↔
      ∃ iface ∈ state.attached object, iface.name = interface ∧ ∃ method ∈ iface.methods, method.member = member := by
    rw [methodFind_dispatched]
    simp only [Option.some.injEq, ← Option.isSome_iff_exists, Option.isSome_map, List.find?_isSome, List.mem_flatMap,
      List.mem_filter, beq_iff_eq]
    constructor
    · rintro ⟨method, ⟨iface, ⟨isAttached, named⟩, isMethod⟩, isMember⟩
      exact ⟨iface, isAttached, named.symm, method, isMethod, isMember.symm⟩
    · rintro ⟨iface, isAttached, named, method, isMethod, isMember⟩
      exact ⟨method, ⟨iface, ⟨isAttached, named.symm⟩, isMethod⟩, isMember.symm⟩
  rw [isFound, listedEntries_eq proper plain]
  constructor
  · rintro ⟨entry, isListed, named, isMember⟩
    obtain ⟨⟨iface, method⟩, isIn, rfl⟩ := List.mem_map.mp isListed
    obtain ⟨isAttached, isMethod⟩ := mem_methodsOf.mp isIn
    exact ⟨iface, isAttached, named, method, isMethod, isMember⟩
  · rintro ⟨iface, isAttached, named, method, isMethod, isMember⟩
    exact ⟨_, List.mem_map_of_mem (mem_methodsOf.mpr ⟨isAttached, isMethod⟩), named, isMember⟩

theorem agrees_iff_firstDeclared (proper : Proper state) {object : Object Fn} (plain : Plain object.path)
    (distinct : ((state.attached object).map Interface.name).Nodup) :
    Agrees state object ↔ ∀ iface ∈ state.attached object, iface.FirstDeclared := by
  have entries := listedEntries_eq proper plain
  constructor
  · intro agrees iface isAttached method isMethod signature declared first isFirst
    obtain ⟨position, isAt⟩ := List.getElem?_of_mem (mem_methodsOf.mpr ⟨isAttached, isMethod⟩)
    have isEntry : (listedEntries state object)[position]? = some (entryOf iface.name method) := by
      rw [entries, List.getElem?_map, isAt]
      rfl
    have valid := (proper.attached object iface isAttached).signatures method isMethod signature declared
    have isSignature : Message.signature ⟨none, none, some iface.name, some method.member, [.other signature]⟩ =
        signature := by
      simp [Message.signature, Arg.signature, String.join]
    have accepted := agrees.dispatched position _ iface method signature isEntry isAt declared
      ⟨none, none, some iface.name, some method.member, [.other signature]⟩ rfl rfl
      (by rw [isSignature, entryOf, declared, listedTypes_join valid])
    rw [← isSignature]
    exact (accepted_iff distinct isAttached rfl rfl isFirst method.func).mp accepted
  · intro declaredFirst
    refine ⟨listed_iff_found proper plain, ?_⟩
    intro position entry iface method signature isEntry isAt declared message isInterface isMember isSignature
    obtain ⟨isAttached, isMethod⟩ := mem_methodsOf.mp (List.mem_of_getElem? isAt)
    have valid := (proper.attached object iface isAttached).signatures method isMethod signature declared
    rw [entries, List.getElem?_map, isAt, Option.map_some, Option.some.injEq] at isEntry
    subst isEntry
    have sameSignature : message.signature = signature := by
      rw [isSignature, entryOf, declared, listedTypes_join valid]
    cases isFirst : iface.methods.find? fun other => method.member == other.member with
    | none =>
        have absent := List.find?_eq_none.mp isFirst method isMethod
        exact absurd BEq.rfl absent
    | some first =>
        apply (accepted_iff distinct isAttached isInterface isMember isFirst method.func).mpr
        rw [sameSignature]
        exact declaredFirst iface isAttached method isMethod signature declared first isFirst

/-- The introspection data of an object agrees with what its calls are dispatched to exactly if no attached
interface declares a member again with another function or signature. -/
theorem introspection_agrees_iff {labels : List (Label Fn)} {finish : State Fn}
    (executed : machine.exec State.initial labels = some finish) (named : ∀ label ∈ labels, label.Named)
    {obj : ObjectId} {object : Object Fn} (found : finish.objects obj = some object) :
    Agrees finish object ↔ ∀ iface ∈ finish.attached object, iface.FirstDeclared := by
  have proper := exec_proper executed named
  have distinct := attached_distinct (exec_sound executed).balanced found
  exact agrees_iff_firstDeclared proper (proper.paths obj object found) distinct

/-- An interface is given two methods of one member. -/
def overloadedRun : List (Label Bool) :=
  [.objectInit, .objectAdd "/org/example" true, .interfaceNew (some "org.example.Clock"),
    .interfaceMethodAdd 2 (some "Set") (some "t") none (some true), .interfaceAttach 0 (some 2),
    .interfaceMethodAdd 2 (some "Set") (some "a{sv}") none (some false)]

theorem overloadedRun_named : ∀ label ∈ overloadedRun, label.Named := by
  have plain : ∀ text ∈ ["/org/example", "org.example.Clock", "Set"], Plain text := by
    simp [Plain]
  intro label isIn
  simp only [overloadedRun, List.mem_cons, List.not_mem_nil, or_false] at isIn
  rcases isIn with rfl | rfl | rfl | rfl | rfl | rfl
  · trivial
  · exact plain "/org/example" (by simp)
  · rintro _ ⟨⟩
    exact plain "org.example.Clock" (by simp)
  · rintro _ ⟨⟩
    exact plain "Set" (by simp)
  · trivial
  · rintro _ ⟨⟩
    exact plain "Set" (by simp)

/-- The object of that run has the interface with both methods. -/
theorem overloadedRun_attached : ∃ finish object introspectable,
    machine.exec State.initial overloadedRun = some finish ∧ finish.objects 0 = some object ∧
      finish.attached object = [introspectable, ⟨"org.example.Clock",
        [⟨"Set", some "t", none, .user true⟩, ⟨"Set", some "a{sv}", none, .user false⟩], [], 2⟩] :=
  ⟨_, _, _, rfl, rfl, rfl⟩

theorem introspection_agrees_iff_overloaded : ∃ finish object,
    machine.exec State.initial overloadedRun = some finish ∧
      (Agrees finish object ↔ ∀ iface ∈ finish.attached object, iface.FirstDeclared) := by
  obtain ⟨finish, object, -, executed, found, -⟩ := overloadedRun_attached
  exact ⟨finish, object, executed, introspection_agrees_iff executed overloadedRun_named found⟩

/-- The second method is listed, and a call with its signature is rejected. -/
theorem introspection_fails_overloaded : ¬ ∀ (labels : List (Label Bool)) finish obj object,
    machine.exec State.initial labels = some finish → (∀ label ∈ labels, label.Named) →
      finish.objects obj = some object → Agrees finish object := by
  intro always
  obtain ⟨finish, object, introspectable, executed, found, attached⟩ := overloadedRun_attached
  have agrees := always overloadedRun finish 0 object executed overloadedRun_named found
  have proper := exec_proper executed overloadedRun_named
  have distinct := attached_distinct (exec_sound executed).balanced found
  have declaredFirst := (agrees_iff_firstDeclared proper (proper.paths 0 object found) distinct).mp agrees
  rw [attached] at declaredFirst
  have same := declaredFirst ⟨"org.example.Clock",
    [⟨"Set", some "t", none, .user true⟩, ⟨"Set", some "a{sv}", none, .user false⟩], [], 2⟩ (by simp)
    ⟨"Set", some "a{sv}", none, .user false⟩ (by simp) "a{sv}" rfl ⟨"Set", some "t", none, .user true⟩ rfl
  cases same.1

end EDBus.Dbus.Exported
