import EDBus.Dbus.IntrospectionCache

/-!
# What the introspection data lists

A reader of the XML text line by line, and what it finds in the text that
`e_dbus_object_introspect` writes: the methods of all interfaces, in order.
-/

open EDBus.Semantics

namespace EDBus.Dbus.Exported

variable {Func : Type}

/-! ## Reading -/

/-- What a line of the text says. -/
inductive Tag where
  | interface (name : String)
  | method (name : String)
  | arg (type direction : String)
  | other
deriving DecidableEq, Repr

/-- A line without its indent, cut at the quotes. -/
def pieces (line : List Char) : List (List Char) := (line.dropWhile (· == ' ')).splitOn '"'

/-- What the pieces of a line say. -/
def tagOf : List (List Char) → Tag
  | [start, name, _] =>
    if start = "<interface name=".toList then .interface (String.ofList name)
    else if start = "<method name=".toList then .method (String.ofList name)
    else .other
  | [start, type, _, direction, _] =>
    if start = "<arg type=".toList then .arg (String.ofList type) (String.ofList direction) else .other
  | _ => .other

def readTag (line : List Char) : Tag := tagOf (pieces line)

/-- A method that is listed, and the types of its `in` arguments. -/
structure Entry where
  interface : String
  member : String
  inTypes : List String
deriving DecidableEq, Repr

/-- The `in` arguments before the next tag that is not an argument. -/
def inTypes : List Tag → List String
  | .arg type direction :: rest => if direction = "in" then type :: inTypes rest else inTypes rest
  | _ => []

/-- The methods under their interfaces. -/
def readTags (interface : String) : List Tag → List Entry
  | [] => []
  | .interface name :: rest => readTags name rest
  | .method member :: rest => ⟨interface, member, inTypes rest⟩ :: readTags interface rest
  | _ :: rest => readTags interface rest

/-- The methods that the text lists. -/
def xmlEntries (text : String) : List Entry := readTags "" ((text.toList.splitOn '\n').map readTag)

/-! ## Texts as lines -/

/-- No quotes and no line ends, as in all names and signatures of D-Bus. -/
def Plain (text : String) : Prop := ∀ character ∈ text.toList, character ≠ '"' ∧ character ≠ '\n'

/-- The text is made of lines with these tags. -/
def Tagged (text : String) (tags : List Tag) : Prop :=
  ∃ lines : List (List Char), text.toList = lines.flatMap (· ++ ['\n']) ∧ (∀ line ∈ lines, '\n' ∉ line) ∧
    lines.map readTag = tags

theorem Tagged.nil : Tagged "" [] := ⟨[], rfl, nofun, rfl⟩

theorem Tagged.append {first second : String} {early late : List Tag} (left : Tagged first early)
    (right : Tagged second late) : Tagged (first ++ second) (early ++ late) := by
  obtain ⟨lines, text, clean, tags⟩ := left
  obtain ⟨more, moreText, moreClean, moreTags⟩ := right
  refine ⟨lines ++ more, ?_, fun line isLine => ?_, ?_⟩
  · rw [String.toList_append, text, moreText, List.flatMap_append]
  · exact (List.mem_append.mp isLine).elim (clean line) (moreClean line)
  · rw [List.map_append, tags, moreTags]

/-- A line that is written in three parts. -/
theorem Tagged.appendLine {before first second third : String} {early late : List Tag} (left : Tagged before early)
    (right : Tagged (first ++ second ++ third) late) : Tagged (before ++ first ++ second ++ third) (early ++ late) := by
  have appended := left.append right
  rwa [← String.append_assoc, ← String.append_assoc] at appended

theorem Tagged.join {Item : Type} {text : Item → String} {tags : Item → List Tag} {items : List Item}
    (each : ∀ item ∈ items, Tagged (text item) (tags item)) :
    Tagged (String.join (items.map text)) (items.flatMap tags) := by
  induction items with
  | nil => exact .nil
  | cons item rest ih =>
      have joined : String.join ((item :: rest).map text) = text item ++ String.join (rest.map text) := by
        apply String.toList_inj.mp
        simp [String.toList_join, String.toList_append]
      rw [joined, List.flatMap_cons]
      exact (each item (List.mem_cons_self ..)).append (ih fun other isIn => each other (List.mem_cons_of_mem item isIn))

theorem intercalate_lines (lines : List (List Char)) :
    lines.flatMap (· ++ ['\n']) = ['\n'].intercalate (lines ++ [[]]) := by
  induction lines with
  | nil => rfl
  | cons line rest ih =>
      rw [List.flatMap_cons, List.cons_append, List.intercalate_cons_of_ne_nil (by simp), ih, List.append_assoc]

/-- The lines of a text and the empty rest. -/
theorem Tagged.read {text : String} {tags : List Tag} (tagged : Tagged text tags) :
    (text.toList.splitOn '\n').map readTag = tags ++ [.other] := by
  obtain ⟨lines, isText, clean, isTags⟩ := tagged
  have split : (['\n'].intercalate (lines ++ [[]])).splitOn '\n' = lines ++ [[]] := by
    apply List.splitOn_intercalate
    · intro line isLine
      rcases List.mem_append.mp isLine with isLine | isLine
      · exact clean line isLine
      · rw [List.mem_singleton.mp isLine]
        exact List.not_mem_nil
    · simp
  rw [isText, intercalate_lines, split, List.map_append, isTags]
  rfl

/-- An indented line cut at its quotes. -/
theorem pieces_eq (indent : Nat) {parts : List (List Char)} (nonempty : parts ≠ [])
    (start : (['"'].intercalate parts).head? ≠ some ' ') (clean : ∀ part ∈ parts, '"' ∉ part) :
    pieces (List.replicate indent ' ' ++ ['"'].intercalate parts) = parts := by
  have dropped : (List.replicate indent ' ' ++ ['"'].intercalate parts).dropWhile (· == ' ') =
      ['"'].intercalate parts := by
    rw [List.dropWhile_append_of_pos (by simp)]
    cases whole : ['"'].intercalate parts with
    | nil => rfl
    | cons first rest =>
        rw [whole, List.head?_cons, ne_eq, Option.some.injEq] at start
        rw [List.dropWhile_cons_of_neg (by simpa using start)]
  rw [pieces, dropped]
  exact List.splitOn_intercalate '"' clean nonempty

theorem mem_intercalate {quote character : Char} {parts : List (List Char)}
    (isIn : character ∈ [quote].intercalate parts) : character = quote ∨ ∃ part ∈ parts, character ∈ part := by
  induction parts with
  | nil => cases isIn
  | cons part rest ih =>
      by_cases last : rest = []
      · subst last
        rw [List.intercalate_singleton] at isIn
        exact .inr ⟨part, List.mem_cons_self .., isIn⟩
      · rw [List.intercalate_cons_of_ne_nil last, List.append_assoc] at isIn
        rcases List.mem_append.mp isIn with here | later
        · exact .inr ⟨part, List.mem_cons_self .., here⟩
        · rcases List.mem_append.mp later with isQuote | later
          · exact .inl (List.mem_singleton.mp isQuote)
          · rcases ih later with isQuote | ⟨other, isOther, inOther⟩
            · exact .inl isQuote
            · exact .inr ⟨other, List.mem_cons_of_mem part isOther, inOther⟩

/-- The tag of an indented line is that of its pieces. -/
theorem Tagged.cut (text : String) (indent : Nat) (parts : List (List Char)) (nonempty : parts ≠ [])
    (start : (['"'].intercalate parts).head? ≠ some ' ') (clean : ∀ part ∈ parts, '"' ∉ part ∧ '\n' ∉ part)
    (isText : text.toList = List.replicate indent ' ' ++ ['"'].intercalate parts ++ ['\n']) :
    Tagged text [tagOf parts] := by
  refine ⟨[List.replicate indent ' ' ++ ['"'].intercalate parts], ?_, ?_, ?_⟩
  · simpa using isText
  · intro line isLine
    rw [List.mem_singleton.mp isLine, List.mem_append]
    rintro (isIndent | isPart)
    · simp at isIndent
    · rcases mem_intercalate isPart with isQuote | ⟨part, isIn, lineEnd⟩
      · cases isQuote
      · exact (clean part isIn).2 lineEnd
  · rw [List.map_singleton, readTag, pieces_eq indent nonempty start fun part isPart => (clean part isPart).1]

theorem Tagged.line (text : String) (indent : Nat) (markup : List Char) (more : List (List Char))
    (clean : ∀ part ∈ ('<' :: markup) :: more, '"' ∉ part ∧ '\n' ∉ part)
    (isText : text.toList = List.replicate indent ' ' ++ ['"'].intercalate (('<' :: markup) :: more) ++ ['\n']) :
    Tagged text [tagOf (('<' :: markup) :: more)] := by
  apply Tagged.cut text indent _ (List.cons_ne_nil _ _) _ clean isText
  cases more with
  | nil => simp
  | cons part rest => simp [List.intercalate_cons_cons]

theorem Plain.clean {text : String} (plain : Plain text) : '"' ∉ text.toList ∧ '\n' ∉ text.toList :=
  ⟨fun quote => (plain _ quote).1 rfl, fun lineEnd => (plain _ lineEnd).2 rfl⟩

theorem plain_completeTypes {signature : String} (valid : Signature.validate signature = true) :
    ∀ type ∈ Signature.completeTypes signature, Plain type := by
  have codes : ∀ code ∈ Signature.codes, code ≠ '"' ∧ code ≠ '\n' := by
    simp [Signature.codes, Signature.basicCodes]
  intro type isType code isCode
  exact codes code (Signature.completeTypes_codes valid type isType code isCode)

theorem introspectIndent_toList (level : Nat) :
    (introspectIndent level).toList = List.replicate (level * 2) ' ' := by
  rw [introspectIndent, String.toList_ofList]

/-! ## The tags of what is written -/

/-- The line that opens an element with a name. -/
theorem opening_tagged (opening : String) (markup : List Char) (isOpening : opening.toList = '<' :: (markup ++ ['"']))
    (clean : '"' ∉ '<' :: markup ∧ '\n' ∉ '<' :: markup) {name : String} (plain : Plain name) (level : Nat) :
    Tagged (introspectIndent level ++ opening ++ name ++ "\">\n") [tagOf ['<' :: markup, name.toList, ['>']]] := by
  apply Tagged.line _ (level * 2) markup
  · exact List.forall_mem_cons.mpr ⟨clean, List.forall_mem_cons.mpr ⟨plain.clean, by decide⟩⟩
  · simp [isOpening, introspectIndent_toList, List.intercalate]

/-- The line that closes an element. -/
theorem closing_tagged (closing : String) (markup : List Char) (isClosing : closing.toList = '<' :: (markup ++ ['\n']))
    (clean : '"' ∉ '<' :: markup ∧ '\n' ∉ '<' :: markup) (level : Nat) :
    Tagged (introspectIndent level ++ closing) [.other] := by
  apply Tagged.line _ (level * 2) markup []
  · exact List.forall_mem_singleton.mpr clean
  · simp [isClosing, introspectIndent_toList, List.intercalate]

/-- The tag of an argument. -/
def argTag (type : String) : Option String → Tag
  | none => .other
  | some direction => .arg type direction

theorem introspectArg_tagged {type : String} {direction : Option String} (plain : Plain type)
    (plainDirection : ∀ text, direction = some text → Plain text) (level : Nat) :
    Tagged (introspectArg type direction level) [argTag type direction] := by
  cases direction with
  | none =>
      have tagged := Tagged.line (introspectArg type none level) (level * 2) "arg type=".toList
        [type.toList, "/>".toList]
        (List.forall_mem_cons.mpr ⟨by decide, List.forall_mem_cons.mpr ⟨plain.clean, by decide⟩⟩)
        (by simp [introspectArg, introspectIndent_toList, List.intercalate])
      exact tagged
  | some direction =>
      have tagged := Tagged.line (introspectArg type (some direction) level) (level * 2) "arg type=".toList
        [type.toList, " direction=".toList, direction.toList, "/>".toList]
        (List.forall_mem_cons.mpr ⟨by decide, List.forall_mem_cons.mpr ⟨plain.clean, List.forall_mem_cons.mpr
          ⟨by decide, List.forall_mem_cons.mpr ⟨(plainDirection direction rfl).clean, by decide⟩⟩⟩⟩)
        (by simp [introspectArg, introspectIndent_toList, List.intercalate])
      have tag : tagOf [('<' :: "arg type=".toList), type.toList, " direction=".toList, direction.toList, "/>".toList] =
          .arg type direction := by
        simp [tagOf]
      rwa [tag] at tagged

/-- The types that are listed for a signature. -/
def listedTypes : Option String → List String
  | none => []
  | some signature =>
    if signature ≠ "" ∧ Signature.validate signature = true then Signature.completeTypes signature else []

theorem introspectArgs_tagged (signature direction : Option String)
    (plainDirection : ∀ text, direction = some text → Plain text) (level : Nat) :
    Tagged (introspectArgs signature direction level) ((listedTypes signature).map (argTag · direction)) := by
  cases signature with
  | none => exact .nil
  | some signature =>
      by_cases isValid : signature ≠ "" ∧ Signature.validate signature = true
      · have each : ∀ type ∈ Signature.completeTypes signature,
            Tagged (introspectArg type direction level) [argTag type direction] := fun type isType =>
          introspectArg_tagged (plain_completeTypes isValid.2 type isType) plainDirection level
        have joined := Tagged.join each
        simpa only [introspectArgs, listedTypes, if_pos isValid, List.map_eq_flatMap] using joined
      · simpa only [introspectArgs, listedTypes, if_neg isValid, List.map_nil] using Tagged.nil

/-- The tags of a method. -/
def methodTags (method : Method Func) : List Tag :=
  .method method.member :: ((listedTypes method.signature).map (argTag · (some "in")) ++
    (listedTypes method.replySignature).map (argTag · (some "out")) ++ [.other])

theorem plain_direction (text : String) (isDirection : text = "in" ∨ text = "out") : Plain text := by
  rcases isDirection with rfl | rfl
  · simp [Plain]
  · simp [Plain]

theorem introspectMethod_tagged {method : Method Func} (plain : Plain method.member) (level : Nat) :
    Tagged (introspectMethod method level) (methodTags method) := by
  have start : Tagged (introspectIndent level ++ "<method name=\"" ++ method.member ++ "\">\n")
      [.method method.member] := by
    have tagged := opening_tagged "<method name=\"" "method name=".toList (by simp) (by decide) plain level
    have tag : tagOf ['<' :: "method name=".toList, method.member.toList, ['>']] = .method method.member := by
      simp [tagOf]
    rwa [tag] at tagged
  have stop : Tagged (introspectIndent level ++ "</method>\n") [.other] :=
    closing_tagged "</method>\n" "/method>".toList (by simp) (by decide) level
  have ins := introspectArgs_tagged method.signature (some "in")
    (fun text isText => plain_direction text (.inl (Option.some.inj isText).symm)) (level + 1)
  have outs := introspectArgs_tagged method.replySignature (some "out")
    (fun text isText => plain_direction text (.inr (Option.some.inj isText).symm)) (level + 1)
  have whole := ((start.append ins).append outs).append stop
  simpa only [introspectMethod, methodTags, String.append_assoc, List.cons_append, List.nil_append] using whole

/-- The tags of a signal. -/
def signalTags (signal : Signal) : List Tag :=
  .other :: ((listedTypes signal.signature).map (argTag · none) ++ [.other])

theorem introspectSignal_tagged {signal : Signal} (plain : Plain signal.name) (level : Nat) :
    Tagged (introspectSignal signal level) (signalTags signal) := by
  have start : Tagged (introspectIndent level ++ "<signal name=\"" ++ signal.name ++ "\">\n") [.other] := by
    have tagged := opening_tagged "<signal name=\"" "signal name=".toList (by simp) (by decide) plain level
    have tag : tagOf ['<' :: "signal name=".toList, signal.name.toList, ['>']] = .other := by
      simp [tagOf]
    rwa [tag] at tagged
  have stop : Tagged (introspectIndent level ++ "</signal>\n") [.other] :=
    closing_tagged "</signal>\n" "/signal>".toList (by simp) (by decide) level
  have args := introspectArgs_tagged signal.signature none nofun (level + 1)
  have whole := (start.append args).append stop
  simpa only [introspectSignal, signalTags, String.append_assoc, List.cons_append, List.nil_append] using whole

/-- The tags of an interface. -/
def interfaceTags (iface : Interface Func) : List Tag :=
  .interface iface.name :: (iface.methods.flatMap methodTags ++ iface.signals.flatMap signalTags ++ [.other])

/-- Names without quotes and line ends. -/
structure Interface.Written (iface : Interface Func) : Prop where
  name : Plain iface.name
  methods : ∀ method ∈ iface.methods, Plain method.member
  signals : ∀ signal ∈ iface.signals, Plain signal.name

theorem introspectInterface_tagged {iface : Interface Func} (written : iface.Written) (level : Nat) :
    Tagged (introspectInterface iface level) (interfaceTags iface) := by
  have start : Tagged (introspectIndent level ++ "<interface name=\"" ++ iface.name ++ "\">\n")
      [.interface iface.name] := by
    have tagged := opening_tagged "<interface name=\"" "interface name=".toList (by simp) (by decide) written.name level
    have tag : tagOf ['<' :: "interface name=".toList, iface.name.toList, ['>']] = .interface iface.name := by
      simp [tagOf]
    rwa [tag] at tagged
  have stop : Tagged (introspectIndent level ++ "</interface>\n") [.other] :=
    closing_tagged "</interface>\n" "/interface>".toList (by simp) (by decide) level
  have methods := Tagged.join fun method isMethod =>
    introspectMethod_tagged (written.methods method isMethod) (level + 1)
  have signals := Tagged.join fun signal isSignal =>
    introspectSignal_tagged (written.signals signal isSignal) (level + 1)
  have whole := ((start.append methods).append signals).append stop
  simpa only [introspectInterface, interfaceTags, String.append_assoc, List.cons_append, List.nil_append] using whole

theorem doctype_tagged :
    Tagged "<!DOCTYPE node PUBLIC \"-//freedesktop//DTD D-BUS Object Introspection 1.0//EN\"\n" [.other] := by
  have tag : tagOf [('<' :: "!DOCTYPE node PUBLIC ".toList),
      "-//freedesktop//DTD D-BUS Object Introspection 1.0//EN".toList, []] = .other := by
    simp [tagOf]
  rw [← tag]
  apply Tagged.line _ 0
  · simp
  · simp [List.intercalate]

theorem location_tagged :
    Tagged " \"http://www.freedesktop.org/standards/dbus/1.0/introspect.dtd\">\n" [.other] := by
  have tag : tagOf [[], "http://www.freedesktop.org/standards/dbus/1.0/introspect.dtd".toList, ">".toList] = .other := by
    simp [tagOf]
  rw [← tag]
  apply Tagged.cut _ 1
  · simp
  · simp [List.intercalate]
  · simp
  · simp [List.intercalate]

theorem objectIntrospect_tagged {path : String} (plain : Plain path) {interfaces : List (Interface Func)}
    (written : ∀ iface ∈ interfaces, iface.Written) :
    Tagged (objectIntrospect path interfaces)
      ([.other, .other, .other] ++ interfaces.flatMap interfaceTags ++ [.other]) := by
  have start : Tagged ("<node name=\"" ++ path ++ "\">\n") [.other] :=
    Tagged.line _ 0 "node name=".toList [path.toList, ">".toList]
      (List.forall_mem_cons.mpr ⟨by decide, List.forall_mem_cons.mpr ⟨plain.clean, by decide⟩⟩)
      (by simp [List.intercalate])
  have stop : Tagged "</node>\n" [.other] := Tagged.line _ 0 "/node>".toList [] (by decide) (by simp [List.intercalate])
  have each : ∀ iface ∈ interfaces, Tagged (introspectInterface iface 1) (interfaceTags iface) :=
    fun iface isAttached => introspectInterface_tagged (written iface isAttached) 1
  have inner := Tagged.join each
  exact (((doctype_tagged.append location_tagged).appendLine start).append inner).append stop

/-! ## What is read back -/

/-- The entry that is listed for a method. -/
def entryOf (interface : String) (method : Method Func) : Entry :=
  ⟨interface, method.member, listedTypes method.signature⟩

theorem inTypes_args (ins outs : List String) (rest : List Tag) :
    inTypes (ins.map (argTag · (some "in")) ++ outs.map (argTag · (some "out")) ++ .other :: rest) = ins := by
  induction ins with
  | nil =>
      rw [List.map_nil, List.nil_append]
      induction outs with
      | nil => rfl
      | cons type outs ih =>
          rw [List.map_cons, List.cons_append, argTag, inTypes, if_neg (by decide), ih]
  | cons type ins ih =>
      rw [List.map_cons, List.cons_append, List.cons_append, argTag, inTypes, if_pos rfl, ih]

theorem readTags_other (interface : String) (rest : List Tag) :
    readTags interface (.other :: rest) = readTags interface rest := rfl

theorem readTags_args (interface : String) (types : List String) (direction : Option String) (rest : List Tag) :
    readTags interface (types.map (argTag · direction) ++ rest) = readTags interface rest := by
  induction types with
  | nil => rfl
  | cons type types ih =>
      rw [List.map_cons, List.cons_append]
      cases direction with
      | none => exact ih
      | some direction => exact ih

theorem readTags_method (interface : String) (method : Method Func) (rest : List Tag) :
    readTags interface (methodTags method ++ rest) = entryOf interface method :: readTags interface rest := by
  have types := inTypes_args (listedTypes method.signature) (listedTypes method.replySignature) rest
  have skipped : readTags interface ((listedTypes method.signature).map (argTag · (some "in")) ++
      (listedTypes method.replySignature).map (argTag · (some "out")) ++ .other :: rest) = readTags interface rest := by
    rw [List.append_assoc, readTags_args, readTags_args]
    rfl
  rw [methodTags, List.cons_append, List.append_assoc, List.singleton_append, readTags, types, skipped]
  rfl

theorem readTags_methods (interface : String) (methods : List (Method Func)) (rest : List Tag) :
    readTags interface (methods.flatMap methodTags ++ rest) =
      methods.map (entryOf interface) ++ readTags interface rest := by
  induction methods with
  | nil => rfl
  | cons method methods ih =>
      rw [List.flatMap_cons, List.append_assoc, readTags_method, ih, List.map_cons, List.cons_append]

theorem readTags_signals (interface : String) (signals : List Signal) (rest : List Tag) :
    readTags interface (signals.flatMap signalTags ++ rest) = readTags interface rest := by
  induction signals with
  | nil => rfl
  | cons signal signals ih =>
      rw [List.flatMap_cons, List.append_assoc, signalTags, List.cons_append, List.append_assoc]
      rw [readTags_other, readTags_args]
      exact ih

/-- The entries of the methods of some interfaces. -/
def entriesOf (interfaces : List (Interface Func)) : List Entry :=
  interfaces.flatMap fun iface => iface.methods.map (entryOf iface.name)

theorem readTags_interfaces (before : String) (interfaces : List (Interface Func)) :
    ∃ last, ∀ rest, readTags before (interfaces.flatMap interfaceTags ++ rest) =
      entriesOf interfaces ++ readTags last rest := by
  induction interfaces generalizing before with
  | nil => exact ⟨before, fun _ => rfl⟩
  | cons iface interfaces ih =>
      obtain ⟨last, later⟩ := ih iface.name
      refine ⟨last, fun rest => ?_⟩
      rw [List.flatMap_cons, List.append_assoc, interfaceTags, List.cons_append, readTags, List.append_assoc,
        List.append_assoc, readTags_methods, readTags_signals]
      rw [List.singleton_append, readTags_other, later, ← List.append_assoc]
      rfl

/-- The text lists the methods of all interfaces, each with the types of its signature. -/
theorem xmlEntries_objectIntrospect {path : String} (plain : Plain path) {interfaces : List (Interface Func)}
    (written : ∀ iface ∈ interfaces, iface.Written) :
    xmlEntries (objectIntrospect path interfaces) = entriesOf interfaces := by
  obtain ⟨last, read⟩ := readTags_interfaces "" interfaces
  rw [xmlEntries, (objectIntrospect_tagged plain written).read]
  have skipped : readTags "" ([.other, .other, .other] ++ interfaces.flatMap interfaceTags ++ [.other] ++ [.other]) =
      readTags "" (interfaces.flatMap interfaceTags ++ [.other, .other]) := by
    rw [List.append_assoc, List.append_assoc]
    rfl
  rw [skipped, read]
  exact List.append_nil _

end EDBus.Dbus.Exported
