import Mathlib.Data.List.Basic

/-!
# Type signatures and their complete types

A signature is a sequence of complete types. Reading one returns the type as it
is written and the rest of the text, so that the types of a signature are its
text cut into pieces (`completeTypes_flatten`).
-/

namespace EDBus.Semantics.Signature

/-- The codes of the types whose values have no parts. -/
def basicCodes : List Char := ['y', 'b', 'n', 'q', 'i', 'u', 'x', 't', 'd', 's', 'o', 'g', 'h']

/-- Every character that a signature may have. -/
def codes : List Char := basicCodes ++ ['v', 'a', '(', ')', '{', '}']

/-- `DBUS_MAXIMUM_TYPE_RECURSION_DEPTH`. -/
def maximumDepth : Nat := 32

/-- `DBUS_MAXIMUM_SIGNATURE_LENGTH`. -/
def maximumLength : Nat := 255

/-- How deep a type is nested. Arrays count as long as one follows the other. -/
structure Depth where
  arrays : Nat
  structs : Nat
  entries : Nat
deriving DecidableEq, Repr

/-- No type is open. -/
def Depth.outside : Depth := ⟨0, 0, 0⟩

mutual

/-- One complete type and the rest of the text. The first argument bounds the
number of types that are looked at. -/
def completeType : Nat → Depth → List Char → Option (List Char × List Char)
  | 0, _, _ => none
  | _ + 1, _, [] => none
  | bound + 1, depth, code :: rest =>
    if code ∈ basicCodes ∨ code = 'v' then some ([code], rest)
    else if code = 'a' then
      if maximumDepth ≤ depth.arrays then none
      else match rest with
      | '{' :: entry =>
        (dictEntry bound depth entry).map fun (type, rest) => ('a' :: '{' :: type, rest)
      | item =>
        (completeType bound { depth with arrays := depth.arrays + 1 } item).map fun (type, rest) =>
          ('a' :: type, rest)
    else if code = '(' then
      if maximumDepth ≤ depth.structs then none
      else match rest with
      | ')' :: _ => none
      | first =>
        (members bound { depth with arrays := 0, structs := depth.structs + 1 } first).map fun (types, rest) =>
          ('(' :: types, rest)
    else none

/-- The members of a structure and its end. -/
def members : Nat → Depth → List Char → Option (List Char × List Char)
  | 0, _, _ => none
  | bound + 1, depth, text =>
    match text with
    | ')' :: rest => some ([')'], rest)
    | text =>
      match completeType bound depth text with
      | none => none
      | some (type, rest) => (members bound depth rest).map fun (types, rest) => (type ++ types, rest)

/-- The basic key, the value and the end of a dictionary entry. -/
def dictEntry : Nat → Depth → List Char → Option (List Char × List Char)
  | 0, _, _ => none
  | _ + 1, _, [] => none
  | bound + 1, depth, key :: text =>
    if key ∉ basicCodes ∨ maximumDepth ≤ depth.entries then none
    else match completeType bound { depth with arrays := 0, entries := depth.entries + 1 } text with
    | some (type, '}' :: rest) => some (key :: type ++ ['}'], rest)
    | _ => none

end

/-- The complete types of a text, if it is a sequence of such types. -/
def typesOf : Nat → List Char → Option (List (List Char))
  | _, [] => some []
  | 0, _ :: _ => none
  | bound + 1, text =>
    match completeType (2 * text.length) .outside text with
    | none => none
    | some (type, rest) => (typesOf bound rest).map fun types => type :: types

/-- `dbus_signature_validate`. -/
def validate (signature : String) : Bool :=
  decide (signature.utf8ByteSize ≤ maximumLength) && (typesOf signature.length signature.toList).isSome

/-- The types that `dbus_signature_iter_get_signature` returns one after the
other for a signature that is valid. -/
def completeTypes (signature : String) : List String :=
  ((typesOf signature.length signature.toList).getD []).map String.ofList

/-! ## The pieces of a signature -/

/-- The type is the front of the text, and is written with codes. -/
structure Piece (text type rest : List Char) : Prop where
  front : type ++ rest = text
  written : ∀ code ∈ type, code ∈ codes

/-- A reader returns the front of the text. -/
def Takes (read : List Char → Option (List Char × List Char)) : Prop :=
  ∀ text type rest, read text = some (type, rest) → Piece text type rest

theorem code_of_basic {code : Char} (basic : code ∈ basicCodes) : code ∈ codes :=
  List.mem_append_left _ basic

theorem Piece.single {code : Char} (isCode : code ∈ codes) (rest : List Char) : Piece (code :: rest) [code] rest where
  front := rfl
  written _ isIn := List.mem_singleton.mp isIn ▸ isCode

theorem Piece.append {text first middle second rest : List Char} (early : Piece text first middle)
    (late : Piece middle second rest) : Piece text (first ++ second) rest where
  front := by rw [List.append_assoc, late.front, early.front]
  written code isIn := (List.mem_append.mp isIn).elim (early.written code) (late.written code)

theorem Piece.cons {code : Char} (isCode : code ∈ codes) {text type rest : List Char} (piece : Piece text type rest) :
    Piece (code :: text) (code :: type) rest :=
  (Piece.single isCode text).append piece

theorem completeType_takes {bound : Nat} (types : ∀ depth, Takes (completeType bound depth))
    (structs : ∀ depth, Takes (members bound depth)) (entries : ∀ depth, Takes (dictEntry bound depth))
    (depth : Depth) : Takes (completeType (bound + 1) depth) := by
  intro text type rest taken
  cases text with
  | nil => cases taken
  | cons code text =>
      unfold completeType at taken
      split at taken
      · next plain =>
          cases taken
          apply Piece.single
          rcases plain with basic | rfl
          · exact code_of_basic basic
          · decide
      · split at taken
        · next isArray =>
            subst isArray
            split at taken
            · cases taken
            · split at taken
              · next entry =>
                  obtain ⟨⟨inner, left⟩, read, same⟩ := Option.map_eq_some_iff.mp taken
                  cases same
                  exact ((entries depth entry inner rest read).cons (by decide)).cons (by decide)
              · obtain ⟨⟨inner, left⟩, read, same⟩ := Option.map_eq_some_iff.mp taken
                cases same
                exact (types _ text inner rest read).cons (by decide)
        · split at taken
          · next isStruct =>
              subst isStruct
              split at taken
              · cases taken
              · split at taken
                · cases taken
                · obtain ⟨⟨inner, left⟩, read, same⟩ := Option.map_eq_some_iff.mp taken
                  cases same
                  exact (structs _ text inner rest read).cons (by decide)
          · cases taken

theorem members_takes {bound : Nat} (types : ∀ depth, Takes (completeType bound depth))
    (structs : ∀ depth, Takes (members bound depth)) (depth : Depth) : Takes (members (bound + 1) depth) := by
  intro text type rest taken
  simp only [members] at taken
  split at taken
  · cases taken
    exact .single (by decide) rest
  · split at taken
    · cases taken
    · next first left read =>
        obtain ⟨⟨others, finished⟩, readOthers, same⟩ := Option.map_eq_some_iff.mp taken
        cases same
        exact (types depth text first left read).append (structs depth left others finished readOthers)

theorem dictEntry_takes {bound : Nat} (types : ∀ depth, Takes (completeType bound depth)) (depth : Depth) :
    Takes (dictEntry (bound + 1) depth) := by
  intro text type rest taken
  cases text with
  | nil => cases taken
  | cons key text =>
      unfold dictEntry at taken
      split at taken
      · cases taken
      · next admitted =>
          have basic : key ∈ basicCodes := by_contra fun notBasic => admitted (.inl notBasic)
          split at taken
          · next value left read =>
              cases taken
              exact ((types _ text value ('}' :: rest) read).cons (code_of_basic basic)).append
                (.single (by decide) rest)
          · cases taken

/-- The readers of types, members and entries take what they return off the text. -/
theorem takes (bound : Nat) : (∀ depth, Takes (completeType bound depth)) ∧
    (∀ depth, Takes (members bound depth)) ∧ ∀ depth, Takes (dictEntry bound depth) := by
  induction bound with
  | zero =>
      refine ⟨fun _ text _ _ taken => ?_, fun _ text _ _ taken => ?_, fun _ text _ _ taken => ?_⟩
      · simp [completeType] at taken
      · simp [members] at taken
      · simp [dictEntry] at taken
  | succ bound ih =>
      obtain ⟨types, structs, entries⟩ := ih
      exact ⟨completeType_takes types structs entries, members_takes types structs, dictEntry_takes types⟩

theorem typesOf_pieces {bound : Nat} {text : List Char} {types : List (List Char)}
    (read : typesOf bound text = some types) :
    types.flatten = text ∧ ∀ type ∈ types, ∀ code ∈ type, code ∈ codes := by
  induction bound generalizing text types with
  | zero =>
      cases text with
      | nil =>
          cases read
          exact ⟨rfl, nofun⟩
      | cons _ _ => cases read
  | succ bound ih =>
      cases text with
      | nil =>
          cases read
          exact ⟨rfl, nofun⟩
      | cons code text =>
          simp only [typesOf] at read
          split at read
          · cases read
          · next type rest readType =>
              obtain ⟨others, readOthers, same⟩ := Option.map_eq_some_iff.mp read
              cases same
              have piece := (takes _).1 .outside (code :: text) type rest readType
              obtain ⟨pieces, written⟩ := ih readOthers
              refine ⟨by rw [List.flatten_cons, pieces, piece.front], fun other isType => ?_⟩
              rcases List.mem_cons.mp isType with rfl | later
              · exact piece.written
              · exact written other later

theorem validate_types {signature : String} (valid : validate signature = true) :
    ∃ types, typesOf signature.length signature.toList = some types := by
  simp only [validate, Bool.and_eq_true] at valid
  exact Option.isSome_iff_exists.mp valid.2

/-- A valid signature is the concatenation of its complete types. -/
theorem completeTypes_join {signature : String} (valid : validate signature = true) :
    String.join (completeTypes signature) = signature := by
  obtain ⟨types, read⟩ := validate_types valid
  obtain ⟨pieces, -⟩ := typesOf_pieces read
  apply String.toList_inj.mp
  rw [completeTypes, read, Option.getD_some, String.toList_join]
  simpa [List.flatMap_def, Function.comp_def] using pieces

/-- A complete type is written with type codes only. -/
theorem completeTypes_codes {signature : String} (valid : validate signature = true) :
    ∀ type ∈ completeTypes signature, ∀ code ∈ type.toList, code ∈ codes := by
  obtain ⟨types, read⟩ := validate_types valid
  obtain ⟨-, isCodes⟩ := typesOf_pieces read
  intro type isType code isCode
  rw [completeTypes, read, Option.getD_some] at isType
  obtain ⟨written, isWritten, rfl⟩ := List.mem_map.mp isType
  rw [String.toList_ofList] at isCode
  exact isCodes written isWritten code isCode

example : typesOf 10 ['s', 'a', '{', 's', 'v', '}', '(', 'i', 'i', ')'] =
    some [['s'], ['a', '{', 's', 'v', '}'], ['(', 'i', 'i', ')']] := by decide

end EDBus.Semantics.Signature
