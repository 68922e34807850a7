import EDBus.Notify.Notification
import EDBus.Semantics.Block
import EDBus.Semantics.CInt
import EDBus.Semantics.TypedData
import Mathlib.Tactic.Linarith

/-!
# Images of notifications

An image is filled from the pixels of an Evas object, travels as a struct of the type
`(iiibiiay)`, and is written out to the pixels of another one. The parameters of a
received image are whatever the sender chose, and the length of its data is not kept.
`fill_safe_iff` and `dataLen_safe_iff` find the images for which it need not be.
-/

open EDBus.Semantics

namespace EDBus.Notify

/-- The pixels of an Evas object, four bytes each. -/
structure EvasImage where
  width : Int32
  height : Int32
  stride : Int32
  data : Block

/-- The `int` in four bytes, the first one the lowest. -/
def wordOf : List UInt8 → UInt32
  | [b0, b1, b2, b3] => b0.toUInt32 ||| b1.toUInt32 <<< 8 ||| b2.toUInt32 <<< 16 ||| b3.toUInt32 <<< 24
  | _ => 0

/-- The four bytes of an `int`. -/
def wordBytes (word : UInt32) : List UInt8 :=
  [word.toUInt8, (word >>> 8).toUInt8, (word >>> 16).toUInt8, (word >>> 24).toUInt8]

/-! ## From an object -/

/-- The four bytes that an iteration of the inner loop of `e_notification_image_init`
writes. Masking removes what the shift of a negative pixel leaves. -/
def initCell (imgdata : Block) (source dest : Int) (x : Nat) : Option Cell := do
  let bytes ← imgdata.load (source + 4 * x) 4
  let s := wordOf bytes
  some ⟨dest + 4 * x, [((s >>> 16) &&& 0xff).toUInt8, ((s >>> 8) &&& 0xff).toUInt8, (s &&& 0xff).toUInt8,
    ((s >>> 24) &&& 0xff).toUInt8]⟩

/-- A row of the image. -/
def initRow (obj : EvasImage) (rowstride : Int) (data : Block) (y : Nat) : Option Block := do
  let source ← CInt.mul y obj.stride.toInt
  let dest ← CInt.mul y rowstride
  (List.range obj.width.toInt.toNat).foldlM
    (fun data x => (initCell obj.data source dest x).bind data.store) data

/-- `e_notification_image_init`. It returns `EINA_FALSE` for an object without pixels;
`garbage` is what `malloc` leaves in the new block. -/
def imageInit (img : Image) (obj : EvasImage) (garbage : Nat → UInt8) : Option Image :=
  if obj.width.toInt ≤ 0 ∨ obj.height.toInt ≤ 0 then none
  else do
    let rowstride ← CInt.mul 4 obj.width.toInt
    let size ← CInt.mul rowstride obj.height.toInt
    let data ← (List.range obj.height.toInt.toNat).foldlM (initRow obj rowstride)
      ((List.range size.toNat).map garbage)
    some { img with
      channels := 4
      rowstride := Int32.ofInt rowstride
      width := obj.width
      height := obj.height
      bitsPerSample := 8
      hasAlpha := 1
      data := some data }

/-! ## To an object -/

/-- The alpha byte of a pixel: `s[3]`, or 0xff for an image without them. -/
def fillAlpha (img : Image) (data : Block) (pixel : Int) : Option (List UInt8) :=
  if img.hasAlpha ≠ 0 then data.load (pixel + 3) 1 else some [0xff]

/-- The pixel that an iteration of the inner loop of `_e_notification_image_evas_object_fill`
reads. `s` is the offset of the row in `img->data`. -/
def fillWord (img : Image) (s : Int) (x : Nat) : Option UInt32 := do
  let data ← img.data
  let pixel := s + x * img.channels.toInt
  let top ← fillAlpha img data pixel
  let red ← data.load pixel 1
  let green ← data.load (pixel + 1) 1
  let blue ← data.load (pixel + 2) 1
  some (wordOf (blue ++ green ++ red ++ top))

/-- The pixel is written. `d` is the offset of the row in `imgdata`. -/
def fillCell (img : Image) (s d : Int) (x : Nat) : Option Cell :=
  (fillWord img s x).map fun word => ⟨d + 4 * x, wordBytes word⟩

/-- A row is written. -/
def fillRow (img : Image) (stride : Int) (imgdata : Block) (y : Nat) : Option Block := do
  let s ← CInt.mul y img.rowstride.toInt
  let d ← CInt.mul y stride
  (List.range img.width.toInt.toNat).foldlM (fun imgdata x => (fillCell img s d x).bind imgdata.store) imgdata

/-- `_e_notification_image_evas_object_fill`: what is written to the pixels of the object. -/
def evasObjectFill (img : Image) (stride : Int) (imgdata : Block) : Option Block :=
  if img.bitsPerSample = 8 then
    (List.range img.height.toInt.toNat).foldlM (fillRow img stride) imgdata
  else some imgdata

/-! ## In messages -/

/-- The type `(iiibiiay)`. -/
def imageType : DataType :=
  .struct (.ofList [.int32, .int32, .int32, .boolean, .int32, .int32, .array .byte])

/-- A value of that type. -/
def imageStruct (width height rowstride : Int32) (hasAlpha : Bool) (bitsPerSample channels : Int32)
    (bytes : List UInt8) : Data :=
  .struct [.int32 width, .int32 height, .int32 rowstride, .boolean hasAlpha, .int32 bitsPerSample,
    .int32 channels, .array .byte (bytes.map .byte)]

/-- The largest array that libdbus appends. -/
def maximumArrayLength : Int := 2 ^ 26

/-- `data_len` in `e_notify_marshal_hint_image`. -/
def dataLen (img : Image) : Option Int := do
  let above ← CInt.sub img.height.toInt 1
  let rows ← CInt.mul above img.rowstride.toInt
  let bits ← CInt.mul img.channels.toInt img.bitsPerSample.toInt
  let rounded ← CInt.add bits 7
  let pixel ← CInt.div rounded 8
  let last ← CInt.mul img.width.toInt pixel
  CInt.add rows last

/-- `e_notify_marshal_hint_image`. The boolean is read from `has_alpha` and the padding
behind it, which is zero. -/
def marshalHintImage (img : Image) : Option Data := do
  let len ← dataLen img
  if 0 ≤ len ∧ len ≤ maximumArrayLength then
    let data ← img.data
    let bytes ← data.load 0 len.toNat
    some (imageStruct img.width img.height img.rowstride (img.hasAlpha ≠ 0) img.bitsPerSample img.channels bytes)
  else none

/-- An `int` that was read. -/
def intOf (number : Nat) : Int32 := (UInt32.ofNat number).toInt32

/-- The bytes of an array of them. -/
def byteOf : Data → Option UInt8
  | .byte value => some value
  | _ => none

/-- A member of the struct is read into a field of the image. -/
def readField (field : Int32) (value : Option Data) : Int32 := intOf (readNumber 4 field.toUInt32.toNat value)

/-- `e_notify_unmarshal_hint_image`, and what it read into the fields of the image. The
variable for the boolean is a `char`. -/
def unmarshalHintImage (iter : Cursor) : Option Image × List Read :=
  if iter.head?.map Data.type = some imageType then
    let width := iter.recurse
    let height := width.next
    let rowstride := height.next
    let hasAlpha := rowstride.next
    let bitsPerSample := hasAlpha.next
    let channels := bitsPerSample.next
    let array := channels.next
    (some
      { width := readField imageNew.width width.head?
        height := readField imageNew.height height.head?
        rowstride := readField imageNew.rowstride rowstride.head?
        hasAlpha := UInt8.ofNat (readNumber 1 imageNew.hasAlpha.toNat hasAlpha.head?)
        bitsPerSample := readField imageNew.bitsPerSample bitsPerSample.head?
        channels := readField imageNew.channels channels.head?
        data := some (array.recurse.filterMap byteOf) },
      [⟨.int32, 4, width.head?⟩, ⟨.int32, 4, height.head?⟩, ⟨.int32, 4, rowstride.head?⟩,
        ⟨.boolean, 1, hasAlpha.head?⟩, ⟨.int32, 4, bitsPerSample.head?⟩, ⟨.int32, 4, channels.head?⟩])
  else (none, [])

/-! ## Receiving -/

/-- An `int` is read into a variable for one. -/
theorem intOf_readNumber (old : Nat) (value : Int32) : intOf (readNumber 4 old (some (.int32 value))) = value := by
  have bound := value.toUInt32.toNat_lt
  simp only [readNumber, Option.bind_some, Data.size, Data.number, overlay, intOf]
  rw [if_neg (by omega), Nat.mod_eq_of_lt (by omega), UInt32.ofNat_toNat]
  exact Int32.toInt32_toUInt32 value

theorem readField_int32 (field value : Int32) : readField field (some (.int32 value)) = value :=
  intOf_readNumber _ value

theorem readNumber_boolean (old : Nat) (value : Bool) : readNumber 1 old (some (.boolean value)) = value.toNat := by
  cases value <;> rfl

/-- The fields of an image are the members of the struct. -/
theorem unmarshalHintImage_struct (width height rowstride : Int32) (hasAlpha : Bool)
    (bitsPerSample channels : Int32) (bytes : List UInt8) :
    unmarshalHintImage [imageStruct width height rowstride hasAlpha bitsPerSample channels bytes] =
      (some ⟨width, height, rowstride, UInt8.ofNat hasAlpha.toNat, bitsPerSample, channels, some bytes⟩,
        [⟨.int32, 4, some (.int32 width)⟩, ⟨.int32, 4, some (.int32 height)⟩,
          ⟨.int32, 4, some (.int32 rowstride)⟩, ⟨.boolean, 1, some (.boolean hasAlpha)⟩,
          ⟨.int32, 4, some (.int32 bitsPerSample)⟩, ⟨.int32, 4, some (.int32 channels)⟩]) := by
  have typed : [imageStruct width height rowstride hasAlpha bitsPerSample channels bytes].head?.map Data.type =
      some imageType := rfl
  have copied : (bytes.map Data.byte).filterMap byteOf = bytes := by
    rw [List.filterMap_map]
    exact List.filterMap_some
  rw [unmarshalHintImage, if_pos typed]
  simp only [Cursor.recurse, Cursor.next, imageStruct, List.head?_cons, Option.elim_some, Data.contents,
    List.tail_cons, readField_int32, readNumber_boolean, copied]

/-! ## Bounds -/

/-- Whatever pixel is read is in the data of the image. -/
def FillInBounds (img : Image) : Prop :=
  img.bitsPerSample = 8 → ∀ y x : Nat, (y : Int) < img.height.toInt → (x : Int) < img.width.toInt →
    ∃ s word, CInt.mul y img.rowstride.toInt = some s ∧ fillWord img s x = some word

/-- What was written to an object was read in bounds. -/
theorem evasObjectFill_inBounds {img : Image} {stride : Int} {imgdata result : Block}
    (filled : evasObjectFill img stride imgdata = some result) : FillInBounds img := by
  intro eight y x row column
  rw [evasObjectFill, if_pos eight] at filled
  obtain ⟨before, after, rowFilled⟩ := Block.foldlM_ran filled (List.mem_range.mpr (by omega : y < img.height.toInt.toNat))
  obtain ⟨s, isRow, rowFilled⟩ := Option.bind_eq_some_iff.mp rowFilled
  obtain ⟨d, -, rowFilled⟩ := Option.bind_eq_some_iff.mp rowFilled
  obtain ⟨before, after, stored⟩ :=
    Block.foldlM_ran rowFilled (List.mem_range.mpr (by omega : x < img.width.toInt.toNat))
  obtain ⟨cell, isCell, -⟩ := Option.bind_eq_some_iff.mp stored
  obtain ⟨word, read, -⟩ := Option.map_eq_some_iff.mp isCell
  exact ⟨s, word, isRow, read⟩

/-- The parameters for which the pixels are in `length` bytes. -/
def FillSafe (width height rowstride : Int) (hasAlpha : Bool) (bitsPerSample channels : Int) (length : Nat) : Prop :=
  bitsPerSample ≠ 8 ∨ width ≤ 0 ∨ height ≤ 0 ∨
    0 ≤ (height - 1) * rowstride ∧ (height - 1) * rowstride < 2 ^ 31 ∧ 0 ≤ (width - 1) * channels ∧
      (height - 1) * rowstride + (width - 1) * channels + (if hasAlpha then 3 else 2) < length

/-- The parameters for which the length that is computed is one of at most `length` bytes. -/
def LengthSafe (width height rowstride : Int) (bitsPerSample channels : Int) (length : Nat) : Prop :=
  CInt.InRange (height - 1) ∧ CInt.InRange ((height - 1) * rowstride) ∧
    CInt.InRange (channels * bitsPerSample + 7) ∧ CInt.InRange (channels * bitsPerSample) ∧
    CInt.InRange (width * (channels * bitsPerSample + 7).tdiv 8) ∧
    CInt.InRange ((height - 1) * rowstride + width * (channels * bitsPerSample + 7).tdiv 8) ∧
    0 ≤ (height - 1) * rowstride + width * (channels * bitsPerSample + 7).tdiv 8 ∧
    (height - 1) * rowstride + width * (channels * bitsPerSample + 7).tdiv 8 ≤ length

/-- A multiple of a number between zero and another one is between zero and its multiple. -/
theorem multiple_between {index last factor : Int} (low : 0 ≤ index) (high : index ≤ last)
    (nonneg : 0 ≤ last * factor) : 0 ≤ index * factor ∧ index * factor ≤ last * factor := by
  by_cases positive : 0 ≤ factor
  · exact ⟨mul_nonneg low positive, mul_le_mul_of_nonneg_right high positive⟩
  · have none : last = 0 := by nlinarith
    have first : index = 0 := by omega
    simp [none, first]

/-- A pixel is read if and only if its bytes are in the data. -/
theorem fillWord_some_iff (img : Image) (data : Block) (hasData : img.data = some data) (s : Int) (x : Nat) :
    (∃ word, fillWord img s x = some word) ↔
      0 ≤ s + x * img.channels.toInt ∧
        s + x * img.channels.toInt + (if img.hasAlpha ≠ 0 then 3 else 2) < data.length := by
  have loads : ∀ offset : Int, (∃ bytes, data.load offset 1 = some bytes) ↔ 0 ≤ offset ∧ offset + 1 ≤ data.length :=
    fun offset => Block.load_eq_some_iff
  unfold fillWord
  simp only [hasData, Option.bind_eq_bind, Option.bind_some]
  generalize s + x * img.channels.toInt = pixel
  constructor
  · rintro ⟨word, read⟩
    obtain ⟨top, topRead, read⟩ := Option.bind_eq_some_iff.mp read
    obtain ⟨red, redRead, read⟩ := Option.bind_eq_some_iff.mp read
    obtain ⟨green, greenRead, read⟩ := Option.bind_eq_some_iff.mp read
    obtain ⟨blue, blueRead, -⟩ := Option.bind_eq_some_iff.mp read
    have first := (loads pixel).mp ⟨red, redRead⟩
    have third := (loads (pixel + 2)).mp ⟨blue, blueRead⟩
    unfold fillAlpha at topRead
    split_ifs at topRead ⊢
    · have fourth := (loads (pixel + 3)).mp ⟨top, topRead⟩
      omega
    · omega
  · rintro ⟨low, high⟩
    have last : 2 ≤ (if img.hasAlpha ≠ 0 then 3 else 2 : Int) := by split_ifs <;> omega
    obtain ⟨red, redRead⟩ := (loads pixel).mpr (by omega)
    obtain ⟨green, greenRead⟩ := (loads (pixel + 1)).mpr (by omega)
    obtain ⟨blue, blueRead⟩ := (loads (pixel + 2)).mpr (by omega)
    have topRead : ∃ top, fillAlpha img data pixel = some top := by
      unfold fillAlpha
      split_ifs at high ⊢
      · exact (loads (pixel + 3)).mpr (by omega)
      · exact ⟨_, rfl⟩
    obtain ⟨top, topRead⟩ := topRead
    rw [topRead, redRead, greenRead, blueRead]
    exact ⟨_, rfl⟩

/-- The pixels of an image are in its data if and only if its parameters are safe. -/
theorem fill_safe_iff (img : Image) (data : Block) (hasData : img.data = some data) :
    FillInBounds img ↔ FillSafe img.width.toInt img.height.toInt img.rowstride.toInt (img.hasAlpha ≠ 0)
      img.bitsPerSample.toInt img.channels.toInt data.length := by
  have eight : img.bitsPerSample = 8 ↔ img.bitsPerSample.toInt = 8 := by
    rw [← Int32.toInt_inj]
    rfl
  unfold FillInBounds FillSafe
  rw [eight]
  simp only [decide_eq_true_eq]
  have pixels := fillWord_some_iff img data hasData
  generalize img.channels.toInt = channels at pixels ⊢
  generalize (if img.hasAlpha ≠ 0 then 3 else 2 : Int) = last at pixels ⊢
  generalize img.height.toInt = height, img.width.toInt = width, img.rowstride.toInt = rowstride
  constructor
  · intro inBounds
    by_cases read : img.bitsPerSample.toInt = 8 ∧ 0 < width ∧ 0 < height
    · obtain ⟨isEight, hasColumn, hasRow⟩ := read
      have corner : ∀ y x : Int, 0 ≤ y → y < height → 0 ≤ x → x < width →
          CInt.InRange (y * rowstride) ∧ 0 ≤ y * rowstride + x * channels ∧
            y * rowstride + x * channels + last < data.length := by
        intro y x yLow yHigh xLow xHigh
        obtain ⟨s, word, row, pixel⟩ := inBounds isEight y.toNat x.toNat (by omega) (by omega)
        rw [Int.toNat_of_nonneg yLow] at row
        obtain ⟨inRange, rfl⟩ := CInt.check_eq_some_iff.mp row
        have bounds := (pixels _ _).mp ⟨word, pixel⟩
        rw [Int.toNat_of_nonneg xLow] at bounds
        exact ⟨inRange, bounds⟩
      have lowest := corner (height - 1) 0 (by omega) (by omega) (by omega) (by omega)
      have rightmost := corner 0 (width - 1) (by omega) (by omega) (by omega) (by omega)
      have farthest := corner (height - 1) (width - 1) (by omega) (by omega) (by omega) (by omega)
      simp only [zero_mul, add_zero, zero_add] at lowest rightmost
      exact .inr (.inr (.inr ⟨lowest.2.1, lowest.1.2, rightmost.2.1, farthest.2.2⟩))
    · omega
  · intro safe isEight y x yHigh xHigh
    rcases safe with other | noColumn | noRow | ⟨rowsLow, rowsHigh, columnsLow, farthest⟩
    · exact absurd isEight other
    · omega
    · omega
    · have row := multiple_between (Int.natCast_nonneg y) (by omega : (y : Int) ≤ height - 1) rowsLow
      have column := multiple_between (Int.natCast_nonneg x) (by omega : (x : Int) ≤ width - 1) columnsLow
      have inRange : CInt.InRange (y * rowstride) := by
        unfold CInt.InRange
        omega
      obtain ⟨word, pixel⟩ := (pixels (y * rowstride) x).mpr (by omega)
      exact ⟨_, word, CInt.check_of inRange, pixel⟩

/-- The length that is computed is in the data if and only if the parameters are safe. -/
theorem dataLen_safe_iff (img : Image) (length : Nat) :
    (∃ len, dataLen img = some len ∧ 0 ≤ len ∧ len ≤ length) ↔
      LengthSafe img.width.toInt img.height.toInt img.rowstride.toInt img.bitsPerSample.toInt
        img.channels.toInt length := by
  have byEight : ∀ bits : Int, CInt.div bits 8 = CInt.check (bits.tdiv 8) := fun bits => if_neg (by decide)
  unfold dataLen LengthSafe
  simp only [CInt.sub, CInt.mul, CInt.add, byEight, Option.bind_eq_bind, Option.bind_eq_some_iff,
    CInt.check_eq_some_iff]
  constructor
  · rintro ⟨len, ⟨_, ⟨above, rfl⟩, _, ⟨rows, rfl⟩, _, ⟨bits, rfl⟩, _, ⟨rounded, rfl⟩, _, ⟨-, rfl⟩, _, ⟨last, rfl⟩,
      sum, rfl⟩, low, high⟩
    exact ⟨above, rows, rounded, bits, last, sum, low, high⟩
  · rintro ⟨above, rows, rounded, bits, last, sum, low, high⟩
    have pixel : CInt.InRange ((img.channels.toInt * img.bitsPerSample.toInt + 7).tdiv 8) :=
      CInt.inRange_tdiv rounded (by decide)
    exact ⟨_, ⟨_, ⟨above, rfl⟩, _, ⟨rows, rfl⟩, _, ⟨bits, rfl⟩, _, ⟨rounded, rfl⟩, _, ⟨pixel, rfl⟩, _, ⟨last, rfl⟩,
      sum, rfl⟩, low, high⟩

/-- A received image is filled in bounds, and sent again with a length that is in bounds, if and only
if its parameters are safe for the length of its data. -/
theorem received_safe_iff (width height rowstride : Int32) (hasAlpha : Bool)
    (bitsPerSample channels : Int32) (bytes : List UInt8) :
    ∃ img, (unmarshalHintImage
        [imageStruct width height rowstride hasAlpha bitsPerSample channels bytes]).1 = some img ∧
      (FillInBounds img ∧ (∃ len, dataLen img = some len ∧ 0 ≤ len ∧ len ≤ bytes.length) ↔
        FillSafe width.toInt height.toInt rowstride.toInt hasAlpha bitsPerSample.toInt channels.toInt
            bytes.length ∧
          LengthSafe width.toInt height.toInt rowstride.toInt bitsPerSample.toInt channels.toInt bytes.length) := by
  refine ⟨_, congrArg Prod.fst (unmarshalHintImage_struct ..), ?_⟩
  rw [fill_safe_iff _ bytes rfl, dataLen_safe_iff]
  have alpha : decide (UInt8.ofNat hasAlpha.toNat ≠ 0) = hasAlpha := by cases hasAlpha <;> rfl
  rw [alpha]

/-- A pixel that was not sent is read. -/
theorem received_outOfBounds :
    ¬ ∀ (width height rowstride : Int32) (hasAlpha : Bool) (bitsPerSample channels : Int32) (bytes : List UInt8)
      (img : Image), (unmarshalHintImage
        [imageStruct width height rowstride hasAlpha bitsPerSample channels bytes]).1 = some img →
      FillInBounds img ∧ ∃ len, dataLen img = some len ∧ 0 ≤ len ∧ len ≤ bytes.length := by
  intro inBounds
  have filled := (inBounds 1 1 4 true 8 4 [] _ (congrArg Prod.fst (unmarshalHintImage_struct ..))).1
  obtain ⟨s, word, -, read⟩ := filled rfl 0 0 (by decide) (by decide)
  have bounds := (fillWord_some_iff _ [] rfl s 0).mp ⟨word, read⟩
  simp at bounds
  omega

end EDBus.Notify
