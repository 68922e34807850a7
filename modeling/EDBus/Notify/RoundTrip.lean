import EDBus.Notify.Marshal

/-!
# Notifications that are sent and received

`received` is what the reader makes of a message of the writer. The texts, numbers and
actions are those of the sender; of the hints some are lost, and the position is one
that the writer left out.
-/

open EDBus.Semantics

namespace EDBus.Notify

/-! ## Actions -/

/-- The complete pairs in a list of strings. -/
def pairs : List String → List Action
  | id :: name :: rest => ⟨id, name⟩ :: pairs rest
  | _ => []

/-- A string is read where one was expected. -/
def stringRead (text : String) : Read := ⟨.string, 8, some (.string text)⟩

/-- The loop adds the complete pairs, and reads nothing else. -/
theorem unmarshalActions_strings (n : Notification) (strings : List String) :
    unmarshalActions n (strings.map .string) =
      ({ n with actions := n.actions ++ pairs strings },
        (strings.take (2 * (strings.length / 2))).map stringRead) := by
  induction strings using pairs.induct generalizing n with
  | case1 id name rest ih =>
      have more : Cursor.hasNext (((id :: name :: rest).map Data.string : List Data)) = true := by
        simp [Cursor.hasNext]
      have half : 2 * ((id :: name :: rest).length / 2) = 2 * (rest.length / 2) + 2 := by
        simp only [List.length_cons]
        omega
      rw [unmarshalActions, dif_pos more, half]
      simp only [List.map_cons, Cursor.next, List.tail_cons, List.head?_cons, readString, Option.getD_some, ih,
        List.take_succ_cons, pairs, Notification.actionAdd, List.append_assoc, List.singleton_append, stringRead]
  | case2 rest single =>
      obtain _ | ⟨id, _ | ⟨name, more⟩⟩ := rest
      · rw [unmarshalActions, dif_neg (by simp [Cursor.hasNext])]
        simp [pairs]
      · rw [unmarshalActions, dif_neg (by simp [Cursor.hasNext])]
        simp [pairs]
      · exact absurd rfl (single id name more)

/-- The strings of actions are the actions. -/
theorem pairs_actions (actions : List Action) :
    pairs (actions.flatMap fun action => [action.id, action.name]) = actions := by
  induction actions with
  | nil => rfl
  | cons action rest ih => exact congrArg (action :: ·) ih

/-! ## Hints, one by one -/

/-- The loop over the hints has come to a notification, with the coordinates that were set. -/
structure Holds (hinting : Hinting) (n : Notification) (x y : Option Int32) : Prop where
  notification : hinting.notification = n
  xSet : hinting.xSet = x.isSome
  ySet : hinting.ySet = y.isSome
  xValue : ∀ value, x = some value → intOf hinting.x = value
  yValue : ∀ value, y = some value → intOf hinting.y = value

variable {hinting : Hinting} {n : Notification} {x y : Option Int32}

/-- A dict entry with a known key. -/
theorem hintEntry_known {key : String} {hint : HintKey} (known : hintKey key = some hint) (value : Data) :
    hintEntry hinting (.dictEntry (.string key) (.variant value)) =
      hintRead { hinting with reads := hinting.reads ++ [stringRead key] } hint [value] := by
  simp only [hintEntry, Data.contents, List.head?_cons, readString, Option.bind_some, known]
  rfl

/-- A dict entry with another key. -/
theorem hintEntry_unknown {key : String} (unknown : hintKey key = none) (value : Data) :
    hintEntry hinting (.dictEntry (.string key) (.variant value)) =
      { hinting with reads := hinting.reads ++ [stringRead key] } := by
  simp only [hintEntry, Data.contents, List.head?_cons, readString, Option.bind_some, unknown]
  rfl

theorem readNumber_byte (old : Nat) (value : UInt8) :
    UInt8.ofNat (readNumber 1 old (some (.byte value))) = value := by
  have bound := value.toNat_lt
  simp only [readNumber, Option.bind_some, Data.size, Data.number, overlay]
  rw [if_neg (by omega), Nat.mod_eq_of_lt (by omega), UInt8.ofNat_toNat]

/-- A byte that is read into a larger variable is its lowest byte. -/
theorem readNumber_lowByte (old : Nat) (value : UInt8) :
    UInt8.ofNat (readNumber 4 old (some (.byte value))) = value := by
  have bound := value.toNat_lt
  apply UInt8.toNat.inj
  simp only [readNumber, Option.bind_some, Data.size, Data.number, overlay, UInt8.toNat_ofNat']
  rw [if_pos (by omega)]
  omega

theorem Holds.urgency (holds : Holds hinting n x y) (value : UInt8) :
    Holds ((if value ≠ 0 then marshalDictByte "urgency" value else []).foldl hintEntry hinting)
      (if value ≠ 0 then n.hintUrgencySet value else n) x y := by
  by_cases zero : value = 0
  · simpa [zero] using holds
  · have known : hintKey "urgency" = some .urgency := by decide
    rw [if_pos zero, if_pos zero, marshalDictByte, if_neg zero, List.foldl_cons, List.foldl_nil,
      hintEntry_known known]
    simp only [hintRead, Hinting.readByte, List.head?_cons, readNumber_byte]
    exact ⟨by rw [holds.notification], holds.xSet, holds.ySet, holds.xValue, holds.yValue⟩

theorem Holds.suppressSound (holds : Holds hinting n x y) (value : UInt8) :
    Holds ((if value ≠ 0 then marshalDictByte "suppress-sound" value else []).foldl hintEntry hinting)
      (if value ≠ 0 then n.hintSuppressSoundSet value else n) x y := by
  by_cases zero : value = 0
  · simpa [zero] using holds
  · have known : hintKey "suppress-sound" = some .suppressSound := by decide
    rw [if_pos zero, if_pos zero, marshalDictByte, if_neg zero, List.foldl_cons, List.foldl_nil,
      hintEntry_known known]
    simp only [hintRead, Hinting.readBoolean, List.head?_cons, readNumber_lowByte]
    exact ⟨by rw [holds.notification], holds.xSet, holds.ySet, holds.xValue, holds.yValue⟩

/-- A string is set with the function for its key. -/
theorem Holds.text {key : String} {hint : HintKey} (set : Notification → Option String → Notification)
    (known : hintKey key = some hint)
    (reads : ∀ hinting variant, hintRead hinting hint variant = hinting.readText variant.head? set)
    (holds : Holds hinting n x y) (value : Option String) :
    Holds ((marshalHintString key value).foldl hintEntry hinting)
      (value.elim n fun text => set n (some text)) x y := by
  cases value with
  | none => exact holds
  | some text =>
      rw [marshalHintString, Option.elim_some, marshalDictString, List.foldl_cons, List.foldl_nil,
        hintEntry_known known, reads]
      simp only [Hinting.readText, List.head?_cons, readString, Option.elim_some]
      exact ⟨by rw [holds.notification], holds.xSet, holds.ySet, holds.xValue, holds.yValue⟩

/-- A string with a key that is not read is lost. -/
theorem Holds.lost {key : String} (unknown : hintKey key = none) (holds : Holds hinting n x y)
    (value : Option String) : Holds ((marshalHintString key value).foldl hintEntry hinting) n x y := by
  cases value with
  | none => exact holds
  | some text =>
      rw [marshalHintString, Option.elim_some, marshalDictString, List.foldl_cons, List.foldl_nil,
        hintEntry_unknown unknown]
      exact ⟨holds.notification, holds.xSet, holds.ySet, holds.xValue, holds.yValue⟩

/-- The image that is received for one that is sent. -/
def receivedImage (image : Option Image) : Option Image :=
  (image.bind marshalHintImage).bind fun data => (unmarshalHintImage [data]).1

theorem Holds.image (holds : Holds hinting n x y) {image : Option Image} {entries : List Data}
    (sent : marshalHintImageData image = some entries) :
    Holds (entries.foldl hintEntry hinting)
      (if image.isSome then n.hintImageDataSet (receivedImage image) else n) x y := by
  cases image with
  | none =>
      obtain rfl := Option.some.inj sent
      exact holds
  | some img =>
      obtain ⟨data, isData, rfl⟩ := Option.map_eq_some_iff.mp sent
      have known : hintKey "image-data" = some .imageData := by decide
      rw [List.foldl_cons, List.foldl_nil, hintEntry_known known]
      simp only [hintRead, Hinting.readImage, receivedImage, Option.isSome_some, if_true, Option.bind_some, isData]
      exact ⟨by rw [holds.notification], holds.xSet, holds.ySet, holds.xValue, holds.yValue⟩

/-- A coordinate that is not zero is sent. -/
def sentInt (value : Int32) : Option Int32 := if value = 0 then none else some value

theorem Holds.sentX (holds : Holds hinting n none y) (value : Int32) :
    Holds ((marshalDictInt "x" value).foldl hintEntry hinting) n (sentInt value) y := by
  unfold marshalDictInt sentInt
  split
  · exact holds
  · have known : hintKey "x" = some .x := by decide
    rw [List.foldl_cons, List.foldl_nil, hintEntry_known known]
    exact ⟨holds.notification, rfl, holds.ySet,
      fun _ same => Option.some.inj same ▸ intOf_readNumber hinting.x value, holds.yValue⟩

theorem Holds.sentY (holds : Holds hinting n x none) (value : Int32) :
    Holds ((marshalDictInt "y" value).foldl hintEntry hinting) n x (sentInt value) := by
  unfold marshalDictInt sentInt
  split
  · exact holds
  · have known : hintKey "y" = some .y := by decide
    rw [List.foldl_cons, List.foldl_nil, hintEntry_known known]
    exact ⟨holds.notification, holds.xSet, rfl, holds.xValue,
      fun _ same => Option.some.inj same ▸ intOf_readNumber hinting.y value⟩

/-- The position is set if both coordinates came. -/
theorem Holds.finish (holds : Holds hinting n x y) :
    hinting.finish.1 = (x.bind fun x => y.map fun y => n.hintXySet x y).getD n := by
  have setX := holds.xSet
  have setY := holds.ySet
  unfold Hinting.finish
  cases x with
  | none => simp [setX, holds.notification]
  | some x =>
      cases y with
      | none => simp [setY, holds.notification]
      | some y => simp [setX, setY, holds.notification, holds.xValue x rfl, holds.yValue y rfl]

/-! ## A whole message -/

/-- The urgency is received, unless it is zero. -/
def withUrgency (hints : Hints) (n : Notification) : Notification :=
  if hints.urgency ≠ 0 then n.hintUrgencySet hints.urgency else n

/-- The category is received. -/
def withCategory (hints : Hints) (n : Notification) : Notification :=
  hints.category.elim n fun text => n.hintCategorySet (some text)

/-- The image is received. -/
def withImageData (hints : Hints) (n : Notification) : Notification :=
  if hints.imageData.isSome then n.hintImageDataSet (receivedImage hints.imageData) else n

/-- The sound file is received. -/
def withSoundFile (hints : Hints) (n : Notification) : Notification :=
  hints.soundFile.elim n fun text => n.hintSoundFileSet (some text)

/-- The sound is suppressed. -/
def withSuppressSound (hints : Hints) (n : Notification) : Notification :=
  if hints.suppressSound ≠ 0 then n.hintSuppressSoundSet hints.suppressSound else n

/-- The position is received, unless a coordinate is zero. -/
def withXy (hints : Hints) (n : Notification) : Notification :=
  if 0 < hints.x ∧ 0 < hints.y then n.hintXySet hints.x hints.y else n

/-- The hints that are received, set one after the other. -/
def receivedHints (hints : Hints) (n : Notification) : Notification :=
  withXy hints (withSuppressSound hints (withSoundFile hints (withImageData hints
    (withCategory hints (withUrgency hints n)))))

/-- The notification that is received for one that is sent. -/
def received (n : Notification) : Notification :=
  (receivedHints n.hints
    { notificationNew with
      appName := some (n.appName.getD "")
      replacesId := n.replacesId
      appIcon := some (n.appIcon.getD "")
      summary := some (n.summary.getD "")
      body := some (n.body.getD "")
      actions := n.actions }).timeoutSet n.expireTimeout

section Views

variable {View : Type} (view : Notification → View)

/-- What a view of a notification does not show of a hint, it does not show when the hint is received. -/
theorem withUrgency_view (kept : ∀ n urgency, view (n.hintUrgencySet urgency) = view n) (hints : Hints)
    (n : Notification) : view (withUrgency hints n) = view n := by
  rw [withUrgency, apply_ite view, kept, ite_self]

theorem withCategory_view (kept : ∀ n category, view (n.hintCategorySet category) = view n) (hints : Hints)
    (n : Notification) : view (withCategory hints n) = view n := by
  rw [withCategory]
  cases hints.category with
  | none => rfl
  | some text => exact kept n text

theorem withImageData_view (kept : ∀ n image, view (n.hintImageDataSet image) = view n) (hints : Hints)
    (n : Notification) : view (withImageData hints n) = view n := by
  rw [withImageData, apply_ite view, kept, ite_self]

theorem withSoundFile_view (kept : ∀ n soundFile, view (n.hintSoundFileSet soundFile) = view n) (hints : Hints)
    (n : Notification) : view (withSoundFile hints n) = view n := by
  rw [withSoundFile]
  cases hints.soundFile with
  | none => rfl
  | some text => exact kept n text

theorem withSuppressSound_view (kept : ∀ n value, view (n.hintSuppressSoundSet value) = view n) (hints : Hints)
    (n : Notification) : view (withSuppressSound hints n) = view n := by
  rw [withSuppressSound, apply_ite view, kept, ite_self]

theorem withXy_view (kept : ∀ n x y, view (n.hintXySet x y) = view n) (hints : Hints) (n : Notification) :
    view (withXy hints n) = view n := by
  rw [withXy, apply_ite view, kept, ite_self]

end Views

theorem start_holds (garbage : Garbage) (n : Notification) : Holds (.start garbage n) n none none where
  notification := rfl
  xSet := rfl
  ySet := rfl
  xValue _ value := nomatch value
  yValue _ value := nomatch value

theorem int32_pos_iff (value : Int32) : 0 < value ↔ -1 < value ∧ value ≠ 0 := by
  rw [Int32.lt_iff_toInt_lt, Int32.lt_iff_toInt_lt, ne_eq, ← Int32.toInt_inj]
  have zero : (0 : Int32).toInt = 0 := rfl
  have minusOne : (-1 : Int32).toInt = -1 := rfl
  omega

/-- The numbers behind the sound file are received. -/
theorem Holds.numbers (holds : Holds hinting n none none) (hints : Hints) :
    ((marshalHintNumbers hints).foldl hintEntry hinting).finish.1 = withXy hints (withSuppressSound hints n) := by
  have silenced := holds.suppressSound hints.suppressSound
  rw [marshalHintNumbers, List.foldl_append, withSuppressSound, withXy]
  simp only [int32_pos_iff]
  generalize (if hints.suppressSound ≠ 0 then n.hintSuppressSoundSet hints.suppressSound else n) = silent
    at silenced ⊢
  by_cases sent : -1 < hints.x ∧ -1 < hints.y
  · rw [if_pos sent, List.foldl_append, ((silenced.sentX hints.x).sentY hints.y).finish]
    unfold sentInt
    by_cases noX : hints.x = 0
    · simp [noX]
    · by_cases noY : hints.y = 0
      · simp [noY, noX]
      · simp [noX, noY, sent]
  · rw [if_neg sent, List.foldl_nil, silenced.finish, if_neg fun positive => sent ⟨positive.1.1, positive.2.1⟩]
    rfl

/-- The early return for no hints does what the loop would. -/
theorem unmarshalNotifyHints_foldl (garbage : Garbage) (n : Notification) (iter : Cursor) :
    unmarshalNotifyHints garbage n iter = (iter.recurse.foldl hintEntry (.start garbage n)).finish := by
  unfold unmarshalNotifyHints
  split
  · next none => rw [none]; rfl
  · next some => rw [some]

/-- The hints of a message are received. -/
theorem unmarshalNotifyHints_marshal (garbage : Garbage) (n : Notification) {hints : Hints} {entries : List Data}
    (sent : marshalHints hints = some entries) (type : DataType) (rest : Cursor) :
    (unmarshalNotifyHints garbage n (.array type entries :: rest)).1 = receivedHints hints n := by
  obtain ⟨image, isImage, rfl⟩ := Option.map_eq_some_iff.mp sent
  have urgency := (start_holds garbage n).urgency hints.urgency
  have category := urgency.text Notification.hintCategorySet (by decide : hintKey "category" = some .category)
    (fun _ _ => rfl) hints.category
  have desktop := category.lost (by decide : hintKey "desktop_entry" = none) hints.desktop
  have imageData := desktop.image isImage
  have soundFile := imageData.text Notification.hintSoundFileSet
    (by decide : hintKey "sound-file" = some .soundFile) (fun _ _ => rfl) hints.soundFile
  rw [unmarshalNotifyHints_foldl]
  simp only [Cursor.recurse, List.head?_cons, Option.elim_some, Data.contents, List.foldl_append]
  exact soundFile.numbers hints

/-- A message with its members, as it is read up to the hints. -/
theorem unmarshalNotify_members (garbage : Garbage) (appName : String) (replacesId : UInt32)
    (appIcon summary body : String) (strings : List String) (hints : Data)
    (isDict : hints.type = .array (.dictEntry .string .variant)) (timeout : Int32) :
    unmarshalNotify garbage [.string appName, .uint32 replacesId, .string appIcon, .string summary, .string body,
        .array .string (strings.map .string), hints, .int32 timeout] =
      let hinted := unmarshalNotifyHints garbage
        { notificationNew with
          appName := some appName
          replacesId := replacesId
          appIcon := some appIcon
          summary := some summary
          body := some body
          actions := pairs strings } [hints, .int32 timeout]
      some (hinted.1.timeoutSet timeout, (strings.take (2 * (strings.length / 2))).map stringRead ++ hinted.2) := by
  have signed : Data.types [.string appName, .uint32 replacesId, .string appIcon, .string summary, .string body,
      .array .string (strings.map .string), hints, .int32 timeout] = notifySignature := by
    simp only [Data.types, Data.type, isDict]
    rfl
  have id : UInt32.ofNat (readNumber 4 0 (some (.uint32 replacesId))) = replacesId := by
    have bound := replacesId.toNat_lt
    simp only [readNumber, Option.bind_some, Data.size, Data.number, overlay]
    rw [if_neg (by omega), Nat.mod_eq_of_lt (by omega), UInt32.ofNat_toNat]
  rw [unmarshalNotify, if_pos signed]
  simp only [Cursor.next, List.tail_cons, List.head?_cons, readMember, readString, id, intOf_readNumber,
    unmarshalNotifyActions, Cursor.recurse, Option.elim_some, Data.contents, unmarshalActions_strings]
  rfl

/-- What is sent is received as `received` says. -/
theorem unmarshalNotify_marshal (garbage : Garbage) (n : Notification) {message : List Data}
    (sent : marshalNotify n = some message) :
    ∃ reads, unmarshalNotify garbage message = some (received n, reads) := by
  obtain ⟨hints, isHints, rfl⟩ := Option.map_eq_some_iff.mp sent
  have strings : n.actions.flatMap marshalAction =
      (n.actions.flatMap fun action => [action.id, action.name]).map .string := by
    rw [List.map_flatMap]
    rfl
  rw [strings, unmarshalNotify_members garbage _ _ _ _ _ _ _ rfl]
  refine ⟨_, congrArg some (Prod.ext ?_ rfl)⟩
  simp only [unmarshalNotifyHints_marshal garbage _ isHints, pairs_actions]
  rfl

/-! ## Texts, numbers and actions -/

/-- The members of a message that has the signature. -/
theorem members_of_signature (message : Message) (signed : Data.types message.body = notifySignature) :
    ∃ appName replacesId appIcon summary body, ∃ strings : List String, ∃ entries : List (String × Data), ∃ timeout,
      message.body = [.string appName, .uint32 replacesId, .string appIcon, .string summary, .string body,
        .array .string (strings.map .string),
        .array (.dictEntry .string .variant)
          (entries.map fun entry => .dictEntry (.string entry.1) (.variant entry.2)), .int32 timeout] := by
  obtain ⟨values, wellTyped⟩ := message
  obtain ⟨appName, values, rfl, isAppName, signed⟩ := Data.types_eq_cons signed
  obtain ⟨replacesId, values, rfl, isReplacesId, signed⟩ := Data.types_eq_cons signed
  obtain ⟨appIcon, values, rfl, isAppIcon, signed⟩ := Data.types_eq_cons signed
  obtain ⟨summary, values, rfl, isSummary, signed⟩ := Data.types_eq_cons signed
  obtain ⟨body, values, rfl, isBody, signed⟩ := Data.types_eq_cons signed
  obtain ⟨actions, values, rfl, isActions, signed⟩ := Data.types_eq_cons signed
  obtain ⟨hints, values, rfl, isHints, signed⟩ := Data.types_eq_cons signed
  obtain ⟨timeout, values, rfl, isTimeout, signed⟩ := Data.types_eq_cons signed
  obtain rfl := Data.types_eq_nil signed
  obtain ⟨appName, rfl⟩ := Data.type_eq_string isAppName
  obtain ⟨replacesId, rfl⟩ := Data.type_eq_uint32 isReplacesId
  obtain ⟨appIcon, rfl⟩ := Data.type_eq_string isAppIcon
  obtain ⟨summary, rfl⟩ := Data.type_eq_string isSummary
  obtain ⟨body, rfl⟩ := Data.type_eq_string isBody
  obtain ⟨items, rfl⟩ := Data.type_eq_array isActions
  obtain ⟨dict, rfl⟩ := Data.type_eq_array isHints
  obtain ⟨timeout, rfl⟩ := Data.type_eq_int32 isTimeout
  obtain ⟨strings, rfl⟩ := Data.exists_strings (wellTyped.of_mem (by simp) : (Data.array .string items).WellTyped)
  obtain ⟨entries, rfl⟩ := Data.exists_entries
    (wellTyped.of_mem (by simp) : (Data.array (.dictEntry .string .variant) dict).WellTyped)
  exact ⟨appName, replacesId, appIcon, summary, body, strings, entries, timeout, rfl⟩

/-- A notification without its hints. -/
def Notification.content (n : Notification) : Notification :=
  { n with hints := notificationNew.hints, hintFlags := 0 }

theorem hintEntry_content (hinting : Hinting) (entry : Data) :
    (hintEntry hinting entry).notification.content = hinting.notification.content := by
  simp only [hintEntry]
  split
  · rfl
  · next key _ => cases key <;> rfl

theorem unmarshalNotifyHints_content (garbage : Garbage) (n : Notification) (iter : Cursor) :
    (unmarshalNotifyHints garbage n iter).1.content = n.content := by
  have kept : ∀ (entries : List Data) (hinting : Hinting),
      (entries.foldl hintEntry hinting).notification.content = hinting.notification.content := by
    intro entries
    induction entries with
    | nil => exact fun _ => rfl
    | cons entry rest ih => exact fun hinting => (ih _).trans (hintEntry_content hinting entry)
  rw [unmarshalNotifyHints_foldl, Hinting.finish]
  have loop := kept iter.recurse (.start garbage n)
  split
  · exact loop
  · exact loop

theorem content_eq_iff {left right : Notification} :
    left.content = right.content ↔ left.appName = right.appName ∧ left.replacesId = right.replacesId ∧
      left.appIcon = right.appIcon ∧ left.summary = right.summary ∧ left.body = right.body ∧
      left.expireTimeout = right.expireTimeout ∧ left.actions = right.actions := by
  simp [Notification.content]

theorem receivedHints_content (hints : Hints) (n : Notification) : (receivedHints hints n).content = n.content := by
  rw [receivedHints, withXy_view Notification.content fun _ _ _ => rfl,
    withSuppressSound_view Notification.content fun _ _ => rfl,
    withSoundFile_view Notification.content fun _ _ => rfl,
    withImageData_view Notification.content fun _ _ => rfl,
    withCategory_view Notification.content fun _ _ => rfl, withUrgency_view Notification.content fun _ _ => rfl]

/-- A notification without an image arrives with its texts, numbers and actions, and from any message
the complete pairs of strings are the actions, of which nothing else is read. -/
theorem texts_and_actions_arrive (garbage : Garbage) :
    (∀ n : Notification, n.hints.imageData = none →
      ∃ message r reads, marshalNotify n = some message ∧ unmarshalNotify garbage message = some (r, reads) ∧
        r.appName = some (n.appName.getD "") ∧ r.replacesId = n.replacesId ∧
        r.appIcon = some (n.appIcon.getD "") ∧ r.summary = some (n.summary.getD "") ∧
        r.body = some (n.body.getD "") ∧ r.expireTimeout = n.expireTimeout ∧ r.actions = n.actions) ∧
      ∀ message : Message, Data.types message.body = notifySignature →
        ∃ (strings : List String) (r : Notification) (reads : List Read),
          message.body[5]? = some (.array .string (strings.map .string)) ∧
          unmarshalNotify garbage message.body =
            some (r, (strings.take (2 * (strings.length / 2))).map stringRead ++ reads) ∧
          r.actions = pairs strings := by
  constructor
  · intro n noImage
    have sent : ∃ message, marshalNotify n = some message := by
      rw [marshalNotify, marshalHints, noImage]
      exact ⟨_, rfl⟩
    obtain ⟨message, sent⟩ := sent
    obtain ⟨reads, got⟩ := unmarshalNotify_marshal garbage n sent
    obtain ⟨appName, replacesId, appIcon, summary, body, -, actions⟩ :=
      content_eq_iff.mp (receivedHints_content n.hints _)
    exact ⟨message, received n, reads, sent, got, appName, replacesId, appIcon, summary, body, rfl, actions⟩
  · intro message signed
    obtain ⟨appName, replacesId, appIcon, summary, body, strings, entries, timeout, isBody⟩ :=
      members_of_signature message signed
    rw [isBody, unmarshalNotify_members garbage _ _ _ _ _ _ _ rfl]
    refine ⟨strings, _, _, rfl, rfl, ?_⟩
    exact congrArg Notification.actions (unmarshalNotifyHints_content ..)

/-- A message without hints and a message with an odd number of strings. -/
theorem texts_and_actions_arrive_odd :
    (∃ message r reads, marshalNotify (notificationFullNew (some "mail") 0 none (some "hello") none 5) = some message ∧
      unmarshalNotify ⟨0, 0, 0, 0⟩ message = some (r, reads) ∧ r.appName = some "mail" ∧ r.replacesId = 0 ∧
      r.appIcon = some "" ∧ r.summary = some "hello" ∧ r.body = some "" ∧ r.expireTimeout = 5 ∧ r.actions = []) ∧
    ∃ (strings : List String) (r : Notification) (reads : List Read),
      [Data.string "", .uint32 0, .string "", .string "", .string "",
          .array .string [.string "reply", .string "Reply", .string "open"],
          .array (.dictEntry .string .variant) [], .int32 0][5]? = some (.array .string (strings.map .string)) ∧
      unmarshalNotify ⟨0, 0, 0, 0⟩ [Data.string "", .uint32 0, .string "", .string "", .string "",
          .array .string [.string "reply", .string "Reply", .string "open"],
          .array (.dictEntry .string .variant) [], .int32 0] =
        some (r, (strings.take (2 * (strings.length / 2))).map stringRead ++ reads) ∧ r.actions = pairs strings :=
  ⟨(texts_and_actions_arrive ⟨0, 0, 0, 0⟩).1 _ rfl,
    (texts_and_actions_arrive ⟨0, 0, 0, 0⟩).2 ⟨_, by simp [Data.AllWellTyped, Data.WellTyped, Data.type]⟩ rfl⟩

/-! ## String hints -/

/-- The string hints: category, desktop entry, sound file and path of the image. -/
def Notification.texts (n : Notification) : Option String × Option String × Option String × Option String :=
  (n.hints.category, n.hints.desktop, n.hints.soundFile, n.hints.imagePath)

theorem withCategory_texts (hints : Hints) {n : Notification} (start : n.texts = (none, none, none, none)) :
    (withCategory hints n).texts = (hints.category, none, none, none) := by
  rw [withCategory]
  cases hints.category with
  | none => exact start
  | some text => exact congrArg (Prod.mk (some text)) (Prod.mk.inj start).2

theorem withSoundFile_texts (hints : Hints) {n : Notification} {category : Option String}
    (start : n.texts = (category, none, none, none)) :
    (withSoundFile hints n).texts = (category, none, hints.soundFile, none) := by
  simp only [Notification.texts, Prod.mk.injEq] at start
  rw [withSoundFile]
  cases hints.soundFile with
  | none => simp [Notification.texts, start]
  | some text => simp [Notification.texts, Notification.hintSoundFileSet, start]

/-- The category and the sound file are received, the other strings never. -/
theorem received_texts (n : Notification) :
    (received n).texts = (n.hints.category, none, n.hints.soundFile, none) := by
  refine Eq.trans (withXy_view Notification.texts (fun _ _ _ => rfl) ..) (Eq.trans (withSuppressSound_view Notification.texts (fun _ _ => rfl) ..) ?_)
  apply withSoundFile_texts
  refine Eq.trans (withImageData_view Notification.texts (fun _ _ => rfl) ..) ?_
  apply withCategory_texts
  exact withUrgency_view Notification.texts (fun _ _ => rfl) ..

/-- The string hints arrive if and only if neither a desktop entry nor an image path is set. -/
theorem stringHints_arrive_iff (garbage : Garbage) (n : Notification) (message : List Data)
    (sent : marshalNotify n = some message) :
    ∃ r reads, unmarshalNotify garbage message = some (r, reads) ∧
      (r.hintCategoryGet = n.hintCategoryGet ∧ r.hintDesktopGet = n.hintDesktopGet ∧
          r.hintSoundFileGet = n.hintSoundFileGet ∧ r.hintImagePathGet = n.hintImagePathGet ↔
        n.hints.desktop = none ∧ n.hints.imagePath = none) := by
  obtain ⟨reads, got⟩ := unmarshalNotify_marshal garbage n sent
  have texts := received_texts n
  simp only [Notification.texts, Prod.mk.injEq] at texts
  obtain ⟨category, desktop, soundFile, imagePath⟩ := texts
  refine ⟨received n, reads, got, ?_⟩
  simp only [Notification.hintCategoryGet, Notification.hintDesktopGet, Notification.hintSoundFileGet,
    Notification.hintImagePathGet, category, desktop, soundFile, imagePath]
  constructor
  · rintro ⟨-, sameDesktop, -, sameImagePath⟩
    exact ⟨sameDesktop.symm, sameImagePath.symm⟩
  · rintro ⟨noDesktop, noImagePath⟩
    exact ⟨trivial, noDesktop.symm, trivial, noImagePath.symm⟩

/-- A category arrives. -/
theorem stringHints_arrive_iff_category :
    ∃ r reads, unmarshalNotify ⟨0, 0, 0, 0⟩ [.string "", .uint32 0, .string "", .string "", .string "",
        .array .string [], .array (.dictEntry .string .variant) [.dictEntry (.string "category")
          (.variant (.string "im"))], .int32 0] = some (r, reads) ∧
      (r.hintCategoryGet = some "im" ∧ r.hintDesktopGet = none ∧ r.hintSoundFileGet = none ∧
        r.hintImagePathGet = none ↔ (none : Option String) = none ∧ (none : Option String) = none) :=
  stringHints_arrive_iff ⟨0, 0, 0, 0⟩ (notificationNew.hintCategorySet (some "im")) _ rfl

/-- A desktop entry is sent with a key that is not read. -/
theorem stringHints_lost :
    ¬ ∀ (garbage : Garbage) (n : Notification) (message : List Data), marshalNotify n = some message →
      ∃ r reads, unmarshalNotify garbage message = some (r, reads) ∧
        r.hintCategoryGet = n.hintCategoryGet ∧ r.hintDesktopGet = n.hintDesktopGet ∧
        r.hintSoundFileGet = n.hintSoundFileGet ∧ r.hintImagePathGet = n.hintImagePathGet := by
  intro arrive
  have sent : ∃ message, marshalNotify (notificationNew.hintDesktopSet (some "mail")) = some message := ⟨_, rfl⟩
  obtain ⟨message, sent⟩ := sent
  obtain ⟨r, reads, got, -, sameDesktop, -⟩ := arrive ⟨0, 0, 0, 0⟩ _ message sent
  obtain ⟨reads', got'⟩ := unmarshalNotify_marshal ⟨0, 0, 0, 0⟩ _ sent
  rw [got'] at got
  obtain ⟨rfl, -⟩ := Prod.mk.inj (Option.some.inj got)
  exact absurd sameDesktop (by decide)

/-! ## Numeric hints -/

/-- A call of one of the setters for numeric hints. -/
inductive NumericCall where
  | urgencySet (urgency : UInt8)
  | xySet (x y : Int32) (nonneg : 0 ≤ x ∧ 0 ≤ y)
  | suppressSoundSet (suppressSound : UInt8)
  | transientSet (transient : Bool)
  | residentSet (resident : Bool)

/-- What the setter does. -/
def NumericCall.apply (n : Notification) : NumericCall → Notification
  | .urgencySet urgency => n.hintUrgencySet urgency
  | .xySet x y _ => n.hintXySet x y
  | .suppressSoundSet suppressSound => n.hintSuppressSoundSet suppressSound
  | .transientSet transient => n.hintTransientSet transient
  | .residentSet resident => n.hintResidentSet resident

/-- What the setters leave: an urgency that was not set is zero, and there is no position or one
that is not negative. -/
structure Numeric (n : Notification) : Prop where
  noImage : n.hints.imageData = none
  urgency : n.hintFlags &&& hintUrgency = 0 → n.hints.urgency = 0
  position : n.hints.x = -1 ∧ n.hints.y = -1 ∨ 0 ≤ n.hints.x ∧ 0 ≤ n.hints.y

theorem fullNew_numeric (appName : Option String) (replacesId : UInt32) (appIcon summary body : Option String)
    (expireTimeout : Int32) : Numeric (notificationFullNew appName replacesId appIcon summary body expireTimeout) where
  noImage := rfl
  urgency _ := rfl
  position := .inl ⟨rfl, rfl⟩

theorem Numeric.flagSet {n : Notification} (numeric : Numeric n) {flag : UInt32} (apart : flag &&& hintUrgency = 0)
    (value : Bool) : Numeric (n.flagSet flag value) where
  noImage := numeric.noImage
  urgency unset := by
    apply numeric.urgency
    cases value with
    | true => rwa [← or_and_apart n.hintFlags apart]
    | false => rwa [← xor_and_apart n.hintFlags apart]
  position := numeric.position

theorem Numeric.apply {n : Notification} (numeric : Numeric n) (call : NumericCall) : Numeric (call.apply n) := by
  cases call with
  | urgencySet urgency =>
      refine ⟨numeric.noImage, fun unset => ?_, numeric.position⟩
      rw [NumericCall.apply, Notification.hintUrgencySet, or_and_self] at unset
      exact absurd unset (by decide)
  | xySet x y nonneg =>
      refine ⟨numeric.noImage, fun unset => numeric.urgency ?_, .inr nonneg⟩
      rwa [← or_and_apart n.hintFlags (rfl : hintXy &&& hintUrgency = 0)]
  | suppressSoundSet suppressSound =>
      refine ⟨numeric.noImage, fun unset => numeric.urgency ?_, numeric.position⟩
      rwa [← or_and_apart n.hintFlags (rfl : hintSuppressSound &&& hintUrgency = 0)]
  | transientSet transient => exact numeric.flagSet rfl transient
  | residentSet resident => exact numeric.flagSet rfl resident

theorem Numeric.calls {n : Notification} (numeric : Numeric n) (calls : List NumericCall) :
    Numeric (calls.foldl NumericCall.apply n) := by
  induction calls generalizing n with
  | nil => exact numeric
  | cons call rest ih => exact ih (numeric.apply call)

/-- The numeric hints, with the bits that they and the flags share. -/
structure Numbers where
  urgency : UInt8
  suppressSound : UInt8
  x : Int32
  y : Int32
  urgencyBit : UInt32
  suppressSoundBit : UInt32
  xyBit : UInt32
deriving DecidableEq

/-- The numeric hints of a notification. -/
def Notification.numbers (n : Notification) : Numbers where
  urgency := n.hints.urgency
  suppressSound := n.hints.suppressSound
  x := n.hints.x
  y := n.hints.y
  urgencyBit := n.hintFlags &&& hintUrgency
  suppressSoundBit := n.hintFlags &&& hintSuppressSound
  xyBit := n.hintFlags &&& hintXy

/-- A flag of another bit is set. -/
theorem numbers_or (n : Notification) {flag : UInt32} (urgency : flag &&& hintUrgency = 0)
    (suppressSound : flag &&& hintSuppressSound = 0) (xy : flag &&& hintXy = 0) :
    Notification.numbers { n with hintFlags := n.hintFlags ||| flag } = n.numbers := by
  simp only [Notification.numbers, or_and_apart _ urgency, or_and_apart _ suppressSound, or_and_apart _ xy]

theorem withUrgency_numbers (hints : Hints) {n : Notification} (start : n.numbers = ⟨0, 0, 0, 0, 0, 0, 0⟩) :
    (withUrgency hints n).numbers =
      ⟨hints.urgency, 0, 0, 0, if hints.urgency ≠ 0 then hintUrgency else 0, 0, 0⟩ := by
  simp only [Notification.numbers, Numbers.mk.injEq] at start
  rw [withUrgency]
  split
  · simp only [Notification.numbers, Notification.hintUrgencySet, or_and_self,
      or_and_apart _ (rfl : hintUrgency &&& hintSuppressSound = 0),
      or_and_apart _ (rfl : hintUrgency &&& hintXy = 0), start]
  · next zero =>
      rw [not_not.mp zero]
      simp only [Notification.numbers, start]

theorem withSuppressSound_numbers (hints : Hints) {n : Notification} {urgency : UInt8} {urgencyBit : UInt32}
    (start : n.numbers = ⟨urgency, 0, 0, 0, urgencyBit, 0, 0⟩) :
    (withSuppressSound hints n).numbers = ⟨urgency, hints.suppressSound, 0, 0, urgencyBit,
      if hints.suppressSound ≠ 0 then hintSuppressSound else 0, 0⟩ := by
  simp only [Notification.numbers, Numbers.mk.injEq] at start
  rw [withSuppressSound]
  split
  · simp only [Notification.numbers, Notification.hintSuppressSoundSet, or_and_self,
      or_and_apart _ (rfl : hintSuppressSound &&& hintUrgency = 0),
      or_and_apart _ (rfl : hintSuppressSound &&& hintXy = 0), start]
  · next zero =>
      rw [not_not.mp zero]
      simp only [Notification.numbers, start]

theorem withXy_numbers (hints : Hints) {n : Notification} {urgency suppressSound : UInt8}
    {urgencyBit suppressSoundBit : UInt32}
    (start : n.numbers = ⟨urgency, suppressSound, 0, 0, urgencyBit, suppressSoundBit, 0⟩) :
    (withXy hints n).numbers = ⟨urgency, suppressSound, if 0 < hints.x ∧ 0 < hints.y then hints.x else 0,
      if 0 < hints.x ∧ 0 < hints.y then hints.y else 0, urgencyBit, suppressSoundBit,
      if 0 < hints.x ∧ 0 < hints.y then hintXy else 0⟩ := by
  rw [withXy]
  split
  · simp only [Notification.numbers, Numbers.mk.injEq] at start
    simp only [Notification.numbers, Notification.hintXySet, or_and_self,
      or_and_apart _ (rfl : hintXy &&& hintUrgency = 0),
      or_and_apart _ (rfl : hintXy &&& hintSuppressSound = 0), start]
  · exact start

/-- What is received of the numeric hints: an urgency, a position and a suppressed sound, each with its
flag, unless they are zero. -/
theorem received_numbers (n : Notification) :
    (received n).numbers =
      ⟨n.hints.urgency, n.hints.suppressSound, if 0 < n.hints.x ∧ 0 < n.hints.y then n.hints.x else 0,
        if 0 < n.hints.x ∧ 0 < n.hints.y then n.hints.y else 0, if n.hints.urgency ≠ 0 then hintUrgency else 0,
        if n.hints.suppressSound ≠ 0 then hintSuppressSound else 0,
        if 0 < n.hints.x ∧ 0 < n.hints.y then hintXy else 0⟩ := by
  apply withXy_numbers
  apply withSuppressSound_numbers
  refine Eq.trans (withSoundFile_view Notification.numbers (fun _ _ => numbers_or _ rfl rfl rfl) ..) ?_
  refine Eq.trans (withImageData_view Notification.numbers (fun _ _ => rfl) ..) ?_
  refine Eq.trans (withCategory_view Notification.numbers (fun _ _ => numbers_or _ rfl rfl rfl) ..) ?_
  apply withUrgency_numbers
  simp [Notification.numbers, notificationNew]

/-- The sender's hints that arrive as they are: the urgency is not zero if it was set, the sound is
suppressed if and only if the notification is transient, and there is a position without a zero that is
flagged, or one of zeros that is not. -/
def NumbersArrive (n : Notification) : Prop :=
  (n.flagged hintUrgency → n.hints.urgency ≠ 0) ∧ (n.flagged hintTransient ↔ n.hints.suppressSound ≠ 0) ∧
    (n.flagged hintXy ∧ 0 < n.hints.x ∧ 0 < n.hints.y ∨ ¬ n.flagged hintXy ∧ n.hints.x = 0 ∧ n.hints.y = 0)

/-- An urgency of zero arrives as the default. -/
theorem urgency_arrives_iff (bit : UInt32) (urgency : UInt8) (unset : bit = 0 → urgency = 0) :
    (if (if urgency ≠ 0 then hintUrgency else 0) ≠ 0 then urgency else 1) = (if bit ≠ 0 then urgency else 1) ↔
      (bit ≠ 0 → urgency ≠ 0) := by
  have nonzero : hintUrgency ≠ 0 := by decide
  by_cases zero : urgency = 0
  · by_cases noBit : bit = 0
    · simp [zero, noBit]
    · simp [zero, noBit]
  · have hasBit : bit ≠ 0 := fun noBit => zero (unset noBit)
    simp [zero, nonzero, hasBit]

/-- A bit arrives if it was set for the value that is sent. -/
theorem bit_arrives_iff {flag bit : UInt32} (nonzero : flag ≠ 0) (either : bit = 0 ∨ bit = flag) (sent : Prop)
    [Decidable sent] : (if sent then flag else 0) = bit ↔ (bit ≠ 0 ↔ sent) := by
  by_cases isSent : sent
  · rcases either with rfl | rfl
    · simp [isSent, nonzero]
    · simp [isSent, nonzero]
  · rcases either with rfl | rfl
    · simp [isSent]
    · simp [isSent, nonzero, Ne.symm nonzero]

/-- A position arrives if it is sent and flagged, or looks like one that was never set. -/
theorem position_arrives_iff {bit : UInt32} (either : bit = 0 ∨ bit = hintXy) (x y : Int32) :
    (decide ((if 0 < x ∧ 0 < y then hintXy else 0) ≠ 0), (if 0 < x ∧ 0 < y then x else 0),
          (if 0 < x ∧ 0 < y then y else 0)) = (decide (bit ≠ 0), x, y) ∧
        (if 0 < x ∧ 0 < y then hintXy else 0) = bit ↔
      bit ≠ 0 ∧ 0 < x ∧ 0 < y ∨ ¬ bit ≠ 0 ∧ x = 0 ∧ y = 0 := by
  have nonzero : hintXy ≠ 0 := by decide
  by_cases sent : 0 < x ∧ 0 < y
  · have notZero : x ≠ 0 := by
      rintro rfl
      exact absurd sent.1 (by decide)
    rcases either with rfl | rfl
    · simp [sent, nonzero, notZero]
    · simp [sent, nonzero]
  · rcases either with rfl | rfl
    · simp [sent, eq_comm]
    · simp [sent, nonzero, Ne.symm nonzero]

/-- After any calls of the setters, the numeric hints and the bits for transient and resident arrive if
and only if `NumbersArrive` says so of the sender's notification. -/
theorem numericHints_arrive_iff (garbage : Garbage) (appName : Option String) (replacesId : UInt32)
    (appIcon summary body : Option String) (expireTimeout : Int32) (calls : List NumericCall) :
    ∃ n message r reads,
      n = calls.foldl NumericCall.apply
        (notificationFullNew appName replacesId appIcon summary body expireTimeout) ∧
      marshalNotify n = some message ∧ unmarshalNotify garbage message = some (r, reads) ∧
      (r.hintUrgencyGet = n.hintUrgencyGet ∧ r.hintXyGet = n.hintXyGet ∧
          r.hintSuppressSoundGet = n.hintSuppressSoundGet ∧
          r.hintFlags &&& hintTransient = n.hintFlags &&& hintTransient ∧
          r.hintFlags &&& hintResident = n.hintFlags &&& hintResident ↔ NumbersArrive n) := by
  have numeric := (fullNew_numeric appName replacesId appIcon summary body expireTimeout).calls calls
  generalize calls.foldl NumericCall.apply _ = n at numeric
  have sent : ∃ message, marshalNotify n = some message := by
    rw [marshalNotify, marshalHints, numeric.noImage]
    exact ⟨_, rfl⟩
  obtain ⟨message, sent⟩ := sent
  obtain ⟨reads, got⟩ := unmarshalNotify_marshal garbage n sent
  refine ⟨n, message, received n, reads, rfl, sent, got, ?_⟩
  have numbers := received_numbers n
  simp only [Notification.numbers, Numbers.mk.injEq] at numbers
  obtain ⟨urgency, suppressSound, x, y, urgencyBit, suppressSoundBit, xyBit⟩ := numbers
  have shared : hintTransient = hintSuppressSound ∧ hintResident = hintXy := ⟨rfl, rfl⟩
  have unset := numeric.urgency
  have transient := and_bit n.hintFlags hintSuppressSound 4 rfl
  have position := and_bit n.hintFlags hintXy 5 rfl
  simp only [NumbersArrive, Notification.hintUrgencyGet, Notification.hintXyGet, Notification.hintSuppressSoundGet,
    Notification.flagged, decide_eq_true_eq, shared.1, shared.2, urgency, suppressSound, x, y, urgencyBit,
    suppressSoundBit, xyBit]
  have urgencyIff := urgency_arrives_iff _ _ unset
  have transientIff := bit_arrives_iff (by decide) transient (n.hints.suppressSound ≠ 0)
  have positionIff := position_arrives_iff position n.hints.x n.hints.y
  constructor
  · rintro ⟨sameUrgency, sameXy, -, sameTransient, sameResident⟩
    exact ⟨urgencyIff.mp sameUrgency, transientIff.mp sameTransient, positionIff.mp ⟨sameXy, sameResident⟩⟩
  · rintro ⟨urgent, transient, placed⟩
    obtain ⟨sameXy, sameResident⟩ := positionIff.mpr placed
    exact ⟨urgencyIff.mpr urgent, sameXy, trivial, transientIff.mpr transient, sameResident⟩

/-- A low urgency and no position do not arrive. -/
theorem numericHints_lost :
    ¬ ∀ (garbage : Garbage) (calls : List NumericCall), ∃ n message r reads,
      n = calls.foldl NumericCall.apply (notificationFullNew none 0 none none none 0) ∧
      marshalNotify n = some message ∧ unmarshalNotify garbage message = some (r, reads) ∧
      r.hintUrgencyGet = n.hintUrgencyGet ∧ r.hintXyGet = n.hintXyGet ∧
      r.hintSuppressSoundGet = n.hintSuppressSoundGet ∧
      r.hintFlags &&& hintTransient = n.hintFlags &&& hintTransient ∧
      r.hintFlags &&& hintResident = n.hintFlags &&& hintResident := by
  intro arrive
  obtain ⟨n, message, r, reads, rfl, sent, got, sameUrgency, -⟩ := arrive ⟨0, 0, 0, 0⟩ [.urgencySet 0]
  obtain ⟨reads', got'⟩ := unmarshalNotify_marshal ⟨0, 0, 0, 0⟩ _ sent
  rw [got'] at got
  obtain ⟨rfl, -⟩ := Prod.mk.inj (Option.some.inj got)
  exact absurd sameUrgency (by decide)

end EDBus.Notify
