import Mathlib.Data.List.Induction

/-!
# Match rules

A match rule tells a bus which messages to pass on. Its text is a list of keys and values separated by
commas. A value may be in quotes, where every character but an apostrophe stands for itself; outside of
them a backslash before an apostrophe stands for the apostrophe. `write` quotes every value, and `read`
gets the conditions back exactly when no value has an apostrophe.
-/

namespace EDBus.Semantics.MatchRule

/-- The character that quotes. -/
def apostrophe : Char := Char.ofNat 39
/-- The character that escapes an apostrophe outside of quotes. -/
def backslash : Char := Char.ofNat 92

/-- A key and the value that is asked for. -/
abbrev Condition := String × String

/-- Where a reader is: in a key, or in the value of a key, outside of quotes or in them. -/
inductive Place where
  | key (key : List Char)
  | bare (key value : List Char)
  | quoted (key value : List Char)

/-- Reads on from a place. Blanks in front of a key are passed over. -/
def readFrom : Place → List Char → Option (List (List Char × List Char))
  | .key key, [] => if key = [] then some [] else none
  | .key key, char :: rest =>
    if char = '=' then readFrom (.bare key []) rest
    else if char = ' ' ∧ key = [] then readFrom (.key []) rest
    else readFrom (.key (key ++ [char])) rest
  | .bare key value, [] => some [(key, value)]
  | .bare key value, [char] =>
    if char = apostrophe then none
    else if char = ',' then some [(key, value)]
    else some [(key, value ++ [char])]
  | .bare key value, char :: next :: rest =>
    if char = apostrophe then readFrom (.quoted key value) (next :: rest)
    else if char = ',' then (readFrom (.key []) (next :: rest)).map ((key, value) :: ·)
    else if char = backslash ∧ next = apostrophe then readFrom (.bare key (value ++ [next])) rest
    else readFrom (.bare key (value ++ [char])) (next :: rest)
  | .quoted _ _, [] => none
  | .quoted key value, char :: rest =>
    if char = apostrophe then readFrom (.bare key value) rest
    else readFrom (.quoted key (value ++ [char])) rest

/-- The conditions in a text, if it is a rule. -/
def read (text : String) : Option (List Condition) :=
  (readFrom (.key []) text.toList).map fun conditions =>
    conditions.map fun condition => (String.ofList condition.1, String.ofList condition.2)

/-- A key and its value in quotes. -/
def text (condition : Condition) : String := condition.1 ++ "='" ++ condition.2 ++ "'"

/-- The same behind some blanks. -/
def spaced (entry : Nat × Condition) : String := String.ofList (List.replicate entry.1 ' ') ++ text entry.2

/-- The text of a rule that has blanks in front of its keys. -/
def writeSpaced : List (Nat × Condition) → String
  | [] => ""
  | first :: rest => rest.foldl (fun rule entry => rule ++ "," ++ spaced entry) (spaced first)

/-- The text of a rule. -/
def write (conditions : List Condition) : String := writeSpaced (conditions.map fun condition => (0, condition))

/-- A key that stands for itself. -/
def Plain (key : String) : Prop := ∀ char ∈ key.toList, char ≠ '=' ∧ char ≠ ' '

instance (key : String) : Decidable (Plain key) :=
  List.decidableBAll (fun char => char ≠ '=' ∧ char ≠ ' ') key.toList

/-! ## Writing -/

@[simp] theorem text_toList (condition : Condition) :
    (text condition).toList =
      condition.1.toList ++ '=' :: apostrophe :: (condition.2.toList ++ [apostrophe]) := by
  simp [text, apostrophe]

@[simp] theorem spaced_toList (entry : Nat × Condition) :
    (spaced entry).toList = List.replicate entry.1 ' ' ++ (text entry.2).toList := by
  rw [spaced, String.toList_append, String.toList_ofList]

@[simp] theorem spaced_zero (condition : Condition) : spaced (0, condition) = text condition := by
  simp [spaced]

theorem writeSpaced_append {entries : List (Nat × Condition)} (some : entries ≠ []) (entry : Nat × Condition) :
    writeSpaced (entries ++ [entry]) = writeSpaced entries ++ "," ++ spaced entry := by
  obtain ⟨first, rest, rfl⟩ := List.exists_cons_of_ne_nil some
  simp [writeSpaced]

theorem write_append {conditions : List Condition} (some : conditions ≠ []) (condition : Condition) :
    write (conditions ++ [condition]) = write conditions ++ "," ++ text condition := by
  rw [write, List.map_append, List.map_singleton, writeSpaced_append (by simpa using some), spaced_zero, write]

theorem writeSpaced_toList (first : Nat × Condition) (rest : List (Nat × Condition)) :
    (writeSpaced (first :: rest)).toList =
      (spaced first).toList ++ rest.flatMap fun entry => ',' :: (spaced entry).toList := by
  induction rest using List.reverseRecOn with
  | nil => simp [writeSpaced]
  | append_singleton rest entry ih =>
      rw [← List.cons_append, writeSpaced_append (by simp), String.toList_append, String.toList_append, ih]
      simp

/-! ## Reading what was written -/

theorem readFrom_key {key : List Char} (plain : ∀ char ∈ key, char ≠ '=' ∧ char ≠ ' ') (before rest : List Char) :
    readFrom (.key before) (key ++ '=' :: rest) = readFrom (.bare (before ++ key) []) rest := by
  induction key generalizing before with
  | nil => simp [readFrom]
  | cons char key ih =>
      obtain ⟨notEquals, notBlank⟩ := plain char List.mem_cons_self
      rw [List.cons_append, readFrom, if_neg notEquals, if_neg (fun blank => notBlank blank.1),
        ih fun other isIn => plain other (.tail _ isIn), List.append_assoc, List.singleton_append]

theorem readFrom_quoted {value : List Char} (unquoted : apostrophe ∉ value) (key before rest : List Char) :
    readFrom (.quoted key before) (value ++ apostrophe :: rest) = readFrom (.bare key (before ++ value)) rest := by
  induction value generalizing before with
  | nil => simp [readFrom]
  | cons char value ih =>
      have different : char ≠ apostrophe := fun same => unquoted (same ▸ List.mem_cons_self)
      rw [List.cons_append, readFrom, if_neg different, ih fun isIn => unquoted (.tail _ isIn), List.append_assoc,
        List.singleton_append]

theorem readFrom_blanks (blanks : Nat) (rest : List Char) :
    readFrom (.key []) (List.replicate blanks ' ' ++ rest) = readFrom (.key []) rest := by
  induction blanks with
  | zero => simp
  | succ blanks ih => simp [List.replicate_succ, readFrom, ih]

/-- Reading a condition ends behind its quotes. -/
theorem readFrom_spaced {entry : Nat × Condition} (plain : Plain entry.2.1)
    (unquoted : apostrophe ∉ entry.2.2.toList) (rest : List Char) :
    readFrom (.key []) ((spaced entry).toList ++ rest) =
      readFrom (.bare entry.2.1.toList entry.2.2.toList) rest := by
  obtain ⟨blanks, key, value⟩ := entry
  have opened (more : List Char) (left : more ≠ []) :
      readFrom (.bare key.toList []) (apostrophe :: more) = readFrom (.quoted key.toList []) more := by
    obtain ⟨next, more, rfl⟩ := List.exists_cons_of_ne_nil left
    rw [readFrom, if_pos rfl]
  have keyRead := readFrom_key plain [] (apostrophe :: (value.toList ++ apostrophe :: rest))
  have valueRead := readFrom_quoted unquoted key.toList [] rest
  rw [List.nil_append] at keyRead valueRead
  rw [spaced_toList, text_toList, List.append_assoc, readFrom_blanks, List.append_assoc, List.cons_append,
    List.cons_append, List.append_assoc, List.singleton_append, keyRead, opened _ (by simp), valueRead]

/-- What is read from a condition on. -/
theorem readFrom_conditions {first : Nat × Condition} {rest : List (Nat × Condition)}
    (plain : ∀ entry ∈ first :: rest, Plain entry.2.1)
    (unquoted : ∀ entry ∈ first :: rest, apostrophe ∉ entry.2.2.toList) :
    readFrom (.key []) ((spaced first).toList ++ rest.flatMap fun entry => ',' :: (spaced entry).toList) =
      some ((first :: rest).map fun entry => (entry.2.1.toList, entry.2.2.toList)) := by
  induction rest generalizing first with
  | nil =>
      rw [readFrom_spaced (plain first List.mem_cons_self) (unquoted first List.mem_cons_self)]
      simp [readFrom]
  | cons second rest ih =>
      rw [readFrom_spaced (plain first List.mem_cons_self) (unquoted first List.mem_cons_self)]
      have others := ih (fun entry isIn => plain entry (.tail _ isIn)) fun entry isIn => unquoted entry (.tail _ isIn)
      generalize tailText : (spaced second).toList ++
        rest.flatMap (fun entry => ',' :: (spaced entry).toList) = more at others
      have shape : (second :: rest).flatMap (fun entry => ',' :: (spaced entry).toList) = ',' :: more := by
        rw [List.flatMap_cons, List.cons_append, tailText]
      have left : more ≠ [] := by
        rw [← tailText, spaced_toList, text_toList]
        simp
      obtain ⟨next, more, rfl⟩ := List.exists_cons_of_ne_nil left
      rw [shape, readFrom, if_neg (by decide), if_pos rfl, others]
      rfl

/-- Every rule reads back as its conditions, whatever the blanks. -/
theorem read_writeSpaced {entries : List (Nat × Condition)} (plain : ∀ entry ∈ entries, Plain entry.2.1)
    (unquoted : ∀ entry ∈ entries, apostrophe ∉ entry.2.2.toList) :
    read (writeSpaced entries) = some (entries.map Prod.snd) := by
  cases entries with
  | nil => simp [read, writeSpaced, readFrom]
  | cons first rest =>
      rw [read, writeSpaced_toList, readFrom_conditions plain unquoted]
      simp [Function.comp_def]

theorem read_write {conditions : List Condition} (plain : ∀ condition ∈ conditions, Plain condition.1)
    (unquoted : ∀ condition ∈ conditions, apostrophe ∉ condition.2.toList) :
    read (write conditions) = some conditions := by
  rw [write, read_writeSpaced]
  · simp [Function.comp_def]
  · intro entry isIn
    obtain ⟨condition, listed, rfl⟩ := List.mem_map.mp isIn
    exact plain condition listed
  · intro entry isIn
    obtain ⟨condition, listed, rfl⟩ := List.mem_map.mp isIn
    exact unquoted condition listed

/-! ## Apostrophes are paid for

Each apostrophe in a text either opens or closes quotes, or it costs a backslash, or it is in a key. So
conditions with an apostrophe in a value need a longer text than the one that `write` gives them.
-/

/-- The apostrophes in the keys. -/
@[simp] def keyApostrophes : List (List Char × List Char) → Nat
  | [] => 0
  | condition :: rest => condition.1.count apostrophe + keyApostrophes rest

/-- The characters of the conditions, with one behind each key and one behind each value. -/
@[simp] def size : List (List Char × List Char) → Nat
  | [] => 0
  | condition :: rest => condition.1.length + condition.2.length + 2 + size rest

/-- The key a reader is at. -/
@[simp] def Place.name : Place → List Char
  | .key name => name
  | .bare name _ => name
  | .quoted name _ => name

/-- The characters a reader has of the condition it is at. -/
@[simp] def Place.size : Place → Nat
  | .key name => name.length
  | .bare name value => name.length + 1 + value.length
  | .quoted name value => name.length + 1 + value.length

theorem readFrom_size {place : Place} {chars : List Char} {conditions : List (List Char × List Char)}
    (isRead : readFrom place chars = some conditions) :
    size conditions + chars.count apostrophe + place.name.count apostrophe ≤
      chars.length + 1 + place.size + keyApostrophes conditions := by
  fun_induction readFrom place chars generalizing conditions with
  | case1 =>
      obtain rfl := Option.some.inj isRead
      simp
  | case2 => cases isRead
  | case3 key rest ih =>
      have counted := ih isRead
      have plain : ('=' == apostrophe) = false := by decide
      simp [List.count_cons, plain] at counted ⊢
      omega
  | case4 key char rest notEquals blank ih =>
      obtain ⟨rfl, rfl⟩ := blank
      have counted := ih isRead
      have plain : (' ' == apostrophe) = false := by decide
      simp [List.count_cons, plain] at counted ⊢
      omega
  | case5 key char rest notEquals inKey ih =>
      have counted := ih isRead
      simp [List.count_cons, List.count_append] at counted ⊢
      omega
  | case6 key value =>
      obtain rfl := Option.some.inj isRead
      simp
      omega
  | case7 => cases isRead
  | case8 key value notApostrophe =>
      obtain rfl := Option.some.inj isRead
      simp [notApostrophe]
      omega
  | case9 key value char notApostrophe notComma =>
      obtain rfl := Option.some.inj isRead
      simp [notApostrophe]
      omega
  | case10 key value next rest ih =>
      have counted := ih isRead
      simp [List.count_cons] at counted ⊢
      omega
  | case11 key value next rest notApostrophe ih =>
      obtain ⟨others, tailRead, rfl⟩ := Option.map_eq_some_iff.mp isRead
      have counted := ih tailRead
      simp [List.count_cons, notApostrophe] at counted ⊢
      omega
  | case12 key value char next rest notApostrophe notComma escaped ih =>
      obtain ⟨rfl, rfl⟩ := escaped
      have counted := ih isRead
      simp [notApostrophe] at counted ⊢
      omega
  | case13 key value char next rest notApostrophe notComma notEscaped ih =>
      have counted := ih isRead
      simp [List.count_cons, notApostrophe] at counted ⊢
      omega
  | case14 => cases isRead
  | case15 key value rest ih =>
      have counted := ih isRead
      simp at counted ⊢
      omega
  | case16 key value char rest notApostrophe ih =>
      have counted := ih isRead
      simp [notApostrophe] at counted ⊢
      omega

/-- The conditions as they are read. -/
def chars (conditions : List Condition) : List (List Char × List Char) :=
  conditions.map fun condition => (condition.1.toList, condition.2.toList)

/-- The apostrophes in the values. -/
@[simp] def valueApostrophes : List Condition → Nat
  | [] => 0
  | condition :: rest => condition.2.toList.count apostrophe + valueApostrophes rest

theorem valueApostrophes_eq_zero {conditions : List Condition} :
    valueApostrophes conditions = 0 ↔ ∀ condition ∈ conditions, apostrophe ∉ condition.2.toList := by
  induction conditions with
  | nil => simp [valueApostrophes]
  | cons condition rest ih =>
      rw [valueApostrophes, Nat.add_eq_zero_iff, ih, List.count_eq_zero, List.forall_mem_cons]

/-- The text of a rule has two characters more than each condition needs, and two more apostrophes. -/
theorem write_size (first : Condition) (rest : List Condition) :
    (write (first :: rest)).toList.length + 1 = size (chars (first :: rest)) + 2 * (rest.length + 1) ∧
      (write (first :: rest)).toList.count apostrophe =
        keyApostrophes (chars (first :: rest)) + valueApostrophes (first :: rest) + 2 * (rest.length + 1) := by
  have equals : ('=' == apostrophe) = false := by decide
  have comma : (',' == apostrophe) = false := by decide
  rw [write, List.map_cons, writeSpaced_toList]
  induction rest generalizing first with
  | nil =>
      simp [chars, valueApostrophes, List.count_append, List.count_cons, equals]
      omega
  | cons second rest ih =>
      have ⟨lengths, counts⟩ := ih second
      simp [chars, List.count_append, List.count_cons, equals, comma] at lengths counts ⊢
      omega

/-- A rule reads back as its conditions exactly if no value has an apostrophe. -/
theorem read_write_iff {conditions : List Condition} (plain : ∀ condition ∈ conditions, Plain condition.1) :
    read (write conditions) = some conditions ↔ ∀ condition ∈ conditions, apostrophe ∉ condition.2.toList := by
  constructor
  · intro isRead
    rw [← valueApostrophes_eq_zero]
    cases conditions with
    | nil => rfl
    | cons first rest =>
        obtain ⟨found, tookAll, same⟩ := Option.map_eq_some_iff.mp isRead
        have isChars : found = chars (first :: rest) := by
          rw [chars, ← same, List.map_map]
          simp [Function.comp_def]
        have counted := readFrom_size tookAll
        have ⟨lengths, counts⟩ := write_size first rest
        rw [isChars] at counted
        simp only [Place.name, Place.size, List.count_nil, List.length_nil] at counted
        omega
  · exact read_write plain

end EDBus.Semantics.MatchRule
