import EDBus.Notify.Image
import Mathlib.Tactic.Ring

/-!
# The pixels of an image

The pixels of an object are taken apart by `e_notification_image_init`, sent, received
and put together by `_e_notification_image_evas_object_fill`. Both loops store a grid of
cells; the rows of the image have no padding, those of the objects may.
-/

open EDBus.Semantics

namespace EDBus.Notify

/-! ## Words -/

/-- An `int` has the bytes it was put together from. -/
theorem wordBytes_wordOf (b0 b1 b2 b3 : UInt8) : wordBytes (wordOf [b0, b1, b2, b3]) = [b0, b1, b2, b3] := by
  have first : (wordOf [b0, b1, b2, b3]).toUInt8 = b0 := by
    refine UInt8.eq_of_toBitVec_eq (BitVec.eq_of_getLsbD_eq fun index low => ?_)
    simp [wordOf]
  have second : (wordOf [b0, b1, b2, b3] >>> 8).toUInt8 = b1 := by
    refine UInt8.eq_of_toBitVec_eq (BitVec.eq_of_getLsbD_eq fun index low => ?_)
    have below : 8 + index < 16 := by omega
    have belowNext : 8 + index < 24 := by omega
    simp (disch := omega) [wordOf, below, belowNext]
  have third : (wordOf [b0, b1, b2, b3] >>> 16).toUInt8 = b2 := by
    refine UInt8.eq_of_toBitVec_eq (BitVec.eq_of_getLsbD_eq fun index low => ?_)
    have below : ¬ 24 ≤ 16 + index := by omega
    simp (disch := omega) [wordOf, below]
  have fourth : (wordOf [b0, b1, b2, b3] >>> 24).toUInt8 = b3 := by
    refine UInt8.eq_of_toBitVec_eq (BitVec.eq_of_getLsbD_eq fun index low => ?_)
    simp (disch := omega) [wordOf]
  rw [wordBytes, first, second, third, fourth]

/-- The components of a pixel, in the order of an image. -/
def componentsOf (bytes : List UInt8) : List UInt8 :=
  match bytes with
  | [blue, green, red, alpha] => [red, green, blue, alpha]
  | _ => []

/-- Masking with 0xff is reading a byte. -/
theorem toUInt8_mask (word : UInt32) : (word &&& 0xff).toUInt8 = word.toUInt8 := by
  rw [UInt32.toUInt8_and]
  exact UInt8.and_neg_one

/-- The pixel that is read is taken apart. -/
theorem initCell_of {imgdata : Block} {source : Int} {x : Nat} {bytes : List UInt8}
    (loaded : imgdata.load (source + 4 * x) 4 = some bytes) (dest : Int) :
    initCell imgdata source dest x = some ⟨dest + 4 * x, componentsOf bytes⟩ := by
  have length := Block.load_length loaded
  obtain ⟨blue, green, red, alpha, rfl⟩ : ∃ blue green red alpha, bytes = [blue, green, red, alpha] :=
    List.length_eq_four.mp length
  have parts := wordBytes_wordOf blue green red alpha
  simp only [wordBytes, List.cons.injEq, and_true] at parts
  obtain ⟨first, second, third, fourth⟩ := parts
  rw [initCell, loaded]
  simp only [Option.bind_eq_bind, Option.bind_some, toUInt8_mask, first, second, third, fourth, componentsOf]

/-! ## Taking apart -/

/-- The bytes of a pixel of an object. -/
def pixelBytes (obj : EvasImage) (y x : Nat) : List UInt8 :=
  (obj.data.load (y * obj.stride.toInt + 4 * x) 4).getD [0, 0, 0, 0]

theorem pixelBytes_shape (obj : EvasImage) (y x : Nat) :
    ∃ blue green red alpha, pixelBytes obj y x = [blue, green, red, alpha] := by
  unfold pixelBytes
  cases loaded : obj.data.load (y * obj.stride.toInt + 4 * x) 4 with
  | none => exact ⟨0, 0, 0, 0, rfl⟩
  | some bytes => exact List.length_eq_four.mp (Block.load_length loaded)

/-- The cell of an image that a pixel is written to. -/
def imageCell (obj : EvasImage) (rowstride : Nat) (y x : Nat) : Cell :=
  ⟨y * rowstride + 4 * x, componentsOf (pixelBytes obj y x)⟩

theorem imageCell_length (obj : EvasImage) (rowstride y x : Nat) :
    (imageCell obj rowstride y x).bytes.length = 4 := by
  obtain ⟨blue, green, red, alpha, shape⟩ := pixelBytes_shape obj y x
  rw [imageCell, shape]
  rfl

/-- What a row that was written is. -/
theorem initRow_of {obj : EvasImage} {rowstride y : Nat} {before after : Block}
    (ran : initRow obj rowstride before y = some after) :
    (∀ x < obj.width.toInt.toNat,
        obj.data.load (y * obj.stride.toInt + 4 * x) 4 = some (pixelBytes obj y x)) ∧
      ∀ block : Block, initRow obj rowstride block y =
        block.storeAll ((List.range obj.width.toInt.toNat).map (imageCell obj rowstride y)) := by
  obtain ⟨source, isSource, ran⟩ := Option.bind_eq_some_iff.mp ran
  obtain ⟨dest, isDest, ran⟩ := Option.bind_eq_some_iff.mp ran
  obtain ⟨-, rfl⟩ := CInt.check_eq_some_iff.mp isSource
  obtain ⟨-, rfl⟩ := CInt.check_eq_some_iff.mp isDest
  have loads : ∀ x < obj.width.toInt.toNat,
      obj.data.load (y * obj.stride.toInt + 4 * x) 4 = some (pixelBytes obj y x) := by
    intro x column
    obtain ⟨_, _, stored⟩ := Block.foldlM_ran ran (List.mem_range.mpr column)
    obtain ⟨cell, isCell, -⟩ := Option.bind_eq_some_iff.mp stored
    obtain ⟨bytes, loaded, -⟩ := Option.bind_eq_some_iff.mp isCell
    rw [pixelBytes, loaded, Option.getD_some]
  refine ⟨loads, fun block => ?_⟩
  rw [initRow, isSource, isDest]
  exact Block.foldlM_store block _ _ (imageCell obj rowstride y) fun x listed =>
    initCell_of (loads x (List.mem_range.mp listed)) _

/-- An image that was built has the size of the object and the components of its pixels. -/
theorem imageInit_of {img built : Image} {obj : EvasImage} {garbage : Nat → UInt8}
    (init : imageInit img obj garbage = some built) :
    ∃ data : Block, ∃ width height : Nat, obj.width.toInt = width ∧ obj.height.toInt = height ∧
      0 < width ∧ 0 < height ∧ 4 * width * height < 2 ^ 31 ∧
      built = ⟨obj.width, obj.height, Int32.ofInt (4 * width), 1, 8, 4, some data⟩ ∧
      data.length = 4 * width * height ∧
      ∀ y x, y < height → x < width →
        obj.data.load (y * obj.stride.toInt + 4 * x) 4 = some (pixelBytes obj y x) ∧
          data.load (y * (4 * width : Nat) + 4 * x) 4 = some (componentsOf (pixelBytes obj y x)) := by
  unfold imageInit at init
  split at init
  · cases init
  · next pixels =>
      obtain ⟨width, isWidth⟩ := Int.eq_ofNat_of_zero_le (by omega : 0 ≤ obj.width.toInt)
      obtain ⟨height, isHeight⟩ := Int.eq_ofNat_of_zero_le (by omega : 0 ≤ obj.height.toInt)
      obtain ⟨rowstride, isRowstride, allocated⟩ := Option.bind_eq_some_iff.mp init
      obtain ⟨size, isSize, looped⟩ := Option.bind_eq_some_iff.mp allocated
      obtain ⟨data, filled, returned⟩ := Option.bind_eq_some_iff.mp looped
      obtain ⟨-, isRowstride⟩ := CInt.check_eq_some_iff.mp isRowstride
      obtain ⟨sizeRange, isSize⟩ := CInt.check_eq_some_iff.mp isSize
      obtain rfl : rowstride = (4 * width : Nat) := by omega
      have columns : obj.width.toInt.toNat = width := by rw [isWidth, Int.toNat_natCast]
      obtain rfl : size = (4 * width * height : Nat) := by
        rw [← isSize, isHeight]
        norm_cast
      simp only [isHeight, Int.toNat_natCast] at filled
      have rows : ∀ y < height, _ := fun y row =>
        have ⟨before, after, ran⟩ := Block.foldlM_ran filled (List.mem_range.mpr row)
        initRow_of ran
      rw [Block.foldlM_grid _ _ fun y row => (rows y row).2] at filled
      have length := Block.storeAll_length filled
      have apart : (Block.grid height obj.width.toInt.toNat (imageCell obj (4 * width))).Pairwise Cell.Apart :=
        Block.grid_apart (fun _ _ => rfl) (imageCell_length obj _) (by rw [columns])
      refine ⟨data, width, height, isWidth, isHeight, by omega, by omega, ?_, ?_, ?_, ?_⟩
      · have bound := sizeRange.2
        rw [isSize] at bound
        exact_mod_cast bound
      · exact (Option.some.inj returned).symm
      · simpa using length
      · intro y x row column
        have inRow : x < obj.width.toInt.toNat := by omega
        refine ⟨(rows y row).1 x inRow, ?_⟩
        have loaded := Block.load_storeAll filled apart (Block.mem_grid.mpr ⟨y, x, row, inRow, rfl⟩)
        rw [imageCell_length] at loaded
        exact loaded

/-! ## Sending -/

/-- Rows without padding are as long together as the data. -/
theorem dataLen_of {img : Image} {width height : Nat} (isWidth : img.width.toInt = width)
    (isHeight : img.height.toInt = height) (isRowstride : img.rowstride.toInt = 4 * width)
    (isChannels : img.channels = 4) (isBits : img.bitsPerSample = 8) (hasRow : 0 < height)
    (hasColumn : 0 < width) (bound : 4 * width * height < 2 ^ 31) :
    dataLen img = some ((4 * width * height : Nat) : Int) := by
  have oneRow : 4 * width ≤ 4 * width * height := Nat.le_mul_of_pos_right _ hasRow
  have oneColumn : height ≤ 4 * width * height := Nat.le_mul_of_pos_left _ (by omega)
  have rows : ((height : Int) - 1) * (4 * width) = (4 * width * height : Nat) - 4 * width := by
    push_cast
    ring
  have channels : img.channels.toInt = 4 := by rw [isChannels]; rfl
  have bits : img.bitsPerSample.toInt = 8 := by rw [isBits]; rfl
  simp only [dataLen, isWidth, isHeight, isRowstride, channels, bits]
  generalize total : 4 * width * height = size at *
  have above : CInt.sub height 1 = some ((height : Int) - 1) := CInt.check_of ⟨by omega, by omega⟩
  have full : CInt.mul ((height : Int) - 1) (4 * width) = some ((size : Int) - 4 * width) := by
    rw [← rows]
    exact CInt.check_of ⟨by omega, by omega⟩
  have pixelBits : CInt.mul 4 8 = some 32 := CInt.check_of ⟨by omega, by omega⟩
  have rounded : CInt.add 32 7 = some 39 := CInt.check_of ⟨by omega, by omega⟩
  have pixel : CInt.div 39 8 = some 4 := by decide
  have last : CInt.mul width 4 = some ((width : Int) * 4) := CInt.check_of ⟨by omega, by omega⟩
  have sum : CInt.add ((size : Int) - 4 * width) (width * 4) = some (size : Int) := by
    rw [CInt.add, show (size : Int) - 4 * width + width * 4 = size by omega]
    exact CInt.check_of ⟨by omega, by omega⟩
  simp only [Option.bind_eq_bind, Option.bind_eq_some_iff]
  exact ⟨_, above, _, full, _, pixelBits, _, rounded, _, pixel, _, last, sum⟩

/-- An image that was built is sent with all its data. -/
theorem marshalHintImage_of {img : Image} {data : Block} {width height : Nat} (isWidth : img.width.toInt = width)
    (isHeight : img.height.toInt = height) (isRowstride : img.rowstride.toInt = 4 * width)
    (isChannels : img.channels = 4) (isBits : img.bitsPerSample = 8) (hasRow : 0 < height)
    (hasColumn : 0 < width) (bound : 4 * width * height ≤ 2 ^ 26) (hasData : img.data = some data)
    (length : data.length = 4 * width * height) :
    marshalHintImage img = some (imageStruct img.width img.height img.rowstride (img.hasAlpha ≠ 0)
      img.bitsPerSample img.channels data) := by
  have len := dataLen_of isWidth isHeight isRowstride isChannels isBits hasRow hasColumn (by omega)
  have whole := Block.load_all data
  rw [marshalHintImage, len]
  simp only [Option.bind_eq_bind, Option.bind_some, hasData, maximumArrayLength]
  rw [if_pos ⟨by omega, by omega⟩, Int.toNat_natCast, ← length, whole]
  rfl

/-! ## Putting together -/

/-- The components of a pixel of an image are put together. -/
theorem fillWord_of {img : Image} {data : Block} (hasData : img.data = some data) (isChannels : img.channels = 4)
    (hasAlpha : img.hasAlpha ≠ 0) {s : Int} {x : Nat} {bytes : List UInt8} (four : bytes.length = 4)
    (loaded : data.load (s + 4 * x) 4 = some (componentsOf bytes)) : fillWord img s x = some (wordOf bytes) := by
  obtain ⟨blue, green, red, alpha, rfl⟩ := List.length_eq_four.mp four
  have channels : s + x * img.channels.toInt = s + 4 * x := by
    rw [isChannels, mul_comm]
    rfl
  have part : ∀ first : Nat, first + 1 ≤ 4 → data.load (s + 4 * x + first) 1 =
      some (((componentsOf [blue, green, red, alpha]).drop first).take 1) := fun _ => Block.load_part loaded
  have redRead : data.load (s + 4 * x) 1 = some [red] := by simpa [componentsOf] using part 0 (by omega)
  have greenRead : data.load (s + 4 * x + 1) 1 = some [green] := part 1 (by omega)
  have blueRead : data.load (s + 4 * x + 2) 1 = some [blue] := part 2 (by omega)
  have alphaRead : fillAlpha img data (s + 4 * x) = some [alpha] := by
    rw [fillAlpha, if_pos hasAlpha]
    exact part 3 (by omega)
  rw [fillWord, hasData]
  simp only [Option.bind_eq_bind, Option.bind_some, channels, alphaRead, redRead, greenRead, blueRead]
  rfl

/-- The cell of an object that a pixel is written to. -/
def objectCell (obj : EvasImage) (stride : Nat) (y x : Nat) : Cell := ⟨y * stride + 4 * x, pixelBytes obj y x⟩

theorem objectCell_length (obj : EvasImage) (stride y x : Nat) : (objectCell obj stride y x).bytes.length = 4 := by
  obtain ⟨blue, green, red, alpha, shape⟩ := pixelBytes_shape obj y x
  rw [objectCell, shape]
  rfl

/-- A row of an image that was received is written as a row of pixels. -/
theorem fillRow_of {obj : EvasImage} {img : Image} {data : Block} {width y stride : Nat}
    (hasData : img.data = some data) (isWidth : img.width.toInt = width) (isChannels : img.channels = 4)
    (hasAlpha : img.hasAlpha ≠ 0) (source : CInt.mul y img.rowstride.toInt = some ((y * (4 * width : Nat) : Nat) : Int))
    (dest : CInt.mul y stride = some ((y * stride : Nat) : Int))
    (loaded : ∀ x < width, data.load (y * (4 * width : Nat) + 4 * x) 4 = some (componentsOf (pixelBytes obj y x)))
    (block : Block) :
    fillRow img stride block y = block.storeAll ((List.range width).map (objectCell obj stride y)) := by
  rw [fillRow, source, dest, isWidth]
  apply Block.foldlM_store block _ _ (objectCell obj stride y)
  intro x listed
  obtain ⟨blue, green, red, alpha, shape⟩ := pixelBytes_shape obj y x
  have here := loaded x (List.mem_range.mp listed)
  rw [← Nat.cast_mul] at here
  rw [fillCell, fillWord_of hasData isChannels hasAlpha (by rw [shape]; rfl) here, Option.map_some, objectCell, shape,
    wordBytes_wordOf, Nat.cast_mul y stride]

/-- The pixels of an object are those of the object that the image was built from, when the
rows of both can be counted with an `int`. -/
theorem pixels_survive (obj : EvasImage) (img built : Image) (garbage : Nat → UInt8)
    (init : imageInit img obj garbage = some built)
    (sendable : 4 * obj.width.toInt * obj.height.toInt ≤ 2 ^ 26) (stride : Int32) (imgdata : Block)
    (wide : 4 * obj.width.toInt ≤ stride.toInt)
    (room : (obj.height.toInt - 1) * stride.toInt + 4 * obj.width.toInt ≤ imgdata.length)
    (countable : (obj.height.toInt - 1) * stride.toInt < 2 ^ 31) :
    ∃ sent received written, marshalHintImage built = some sent ∧
      (unmarshalHintImage [sent]).1 = some received ∧
      evasObjectFill received stride.toInt imgdata = some written ∧
      ∀ y x : Nat, (y : Int) < obj.height.toInt → (x : Int) < obj.width.toInt →
        ∃ pixel, obj.data.load (y * obj.stride.toInt + 4 * x) 4 = some pixel ∧
          written.load (y * stride.toInt + 4 * x) 4 = some pixel := by
  obtain ⟨data, width, height, isWidth, isHeight, hasColumn, hasRow, -, rfl, length, pixels⟩ := imageInit_of init
  simp only [isWidth, isHeight] at sendable wide room countable ⊢
  obtain ⟨strideNat, isStride⟩ := Int.eq_ofNat_of_zero_le (by omega : 0 ≤ stride.toInt)
  rw [isStride] at room countable wide ⊢
  have total : 4 * width * height ≤ 2 ^ 26 := by exact_mod_cast sendable
  have oneRow : 4 * width ≤ 4 * width * height := Nat.le_mul_of_pos_right _ hasRow
  have isRowstride : (Int32.ofInt (4 * width)).toInt = 4 * width :=
    Int32.toInt_ofInt_of_le (by omega) (by omega)
  have lastRow : ((height : Int) - 1) = (height - 1 : Nat) := by omega
  rw [lastRow] at room countable
  norm_cast at room countable wide
  let received : Image :=
    ⟨obj.width, obj.height, Int32.ofInt (4 * width), UInt8.ofNat 1, 8, 4, some data⟩
  have row : ∀ y < height, y * (4 * width) ≤ 4 * width * height ∧ y * strideNat ≤ (height - 1) * strideNat := by
    intro y inImage
    refine ⟨?_, Nat.mul_le_mul_right strideNat (by omega)⟩
    rw [Nat.mul_comm (4 * width) height]
    exact Nat.mul_le_mul_right (4 * width) inImage.le
  have filled : evasObjectFill received strideNat imgdata =
      imgdata.storeAll (Block.grid height width (objectCell obj strideNat)) := by
    rw [evasObjectFill, if_pos rfl, show received.height.toInt.toNat = height by rw [isHeight, Int.toNat_natCast]]
    refine Block.foldlM_grid imgdata _ fun y inImage block => ?_
    obtain ⟨inData, inObject⟩ := row y inImage
    refine fillRow_of rfl isWidth rfl (show UInt8.ofNat 1 ≠ 0 by decide) ?_ ?_ (fun x column => (pixels y x inImage column).2) block
    · rw [isRowstride, CInt.mul]
      exact_mod_cast CInt.check_of ⟨by omega, by omega⟩
    · exact_mod_cast CInt.check_of ⟨by omega, by omega⟩
  have apart : (Block.grid height width (objectCell obj strideNat)).Pairwise Cell.Apart :=
    Block.grid_apart (fun _ _ => rfl) (objectCell_length obj strideNat) wide
  obtain ⟨written, stored⟩ :=
    Block.storeAll_inside (Block.grid_inside (fun _ _ => rfl) (objectCell_length obj strideNat) room)
  refine ⟨_, received, written, marshalHintImage_of isWidth isHeight isRowstride rfl rfl hasRow hasColumn total rfl
    length, congrArg Prod.fst (unmarshalHintImage_struct ..), filled.trans stored, ?_⟩
  intro y x inRows inColumns
  have pixel := pixels y x (by omega) (by omega)
  have loaded := Block.load_storeAll stored apart
    (Block.mem_grid.mpr ⟨y, x, by omega, by omega, rfl⟩)
  rw [objectCell_length] at loaded
  exact ⟨pixelBytes obj y x, pixel.1, loaded⟩

/-- A pixel of an object. -/
def onePixel : EvasImage := ⟨1, 1, 4, [1, 2, 3, 4]⟩

theorem pixels_survive_onePixel :
    ∃ sent received written, marshalHintImage ⟨1, 1, 4, 1, 8, 4, some [3, 2, 1, 4]⟩ = some sent ∧
      (unmarshalHintImage [sent]).1 = some received ∧
      evasObjectFill received (4 : Int32).toInt [0, 0, 0, 0] = some written ∧
      ∀ y x : Nat, (y : Int) < onePixel.height.toInt → (x : Int) < onePixel.width.toInt →
        ∃ pixel, onePixel.data.load (y * onePixel.stride.toInt + 4 * x) 4 = some pixel ∧
          written.load (y * (4 : Int32).toInt + 4 * x) 4 = some pixel :=
  pixels_survive onePixel imageNew ⟨1, 1, 4, 1, 8, 4, some [3, 2, 1, 4]⟩ (fun _ => 0) (by decide) (by decide) 4
    [0, 0, 0, 0] (by decide) (by decide) (by decide)

/-- Three pixels, one below the other. -/
def threePixels : EvasImage := ⟨1, 3, 4, List.replicate 12 0⟩

/-- The rows of an object can be too far apart to be counted. -/
theorem pixels_overflow :
    ¬ ∀ (obj : EvasImage) (img built : Image) (garbage : Nat → UInt8), imageInit img obj garbage = some built →
      4 * obj.width.toInt * obj.height.toInt ≤ 2 ^ 26 → 4 * obj.width.toInt ≤ obj.stride.toInt →
      ∀ (stride : Int32) (imgdata : Block), 4 * obj.width.toInt ≤ stride.toInt →
        (obj.height.toInt - 1) * stride.toInt + 4 * obj.width.toInt ≤ imgdata.length →
        ∃ sent received written, marshalHintImage built = some sent ∧
          (unmarshalHintImage [sent]).1 = some received ∧
          evasObjectFill received stride.toInt imgdata = some written ∧
          ∀ y x : Nat, (y : Int) < obj.height.toInt → (x : Int) < obj.width.toInt →
            ∃ pixel, obj.data.load (y * obj.stride.toInt + 4 * x) 4 = some pixel ∧
              written.load (y * stride.toInt + 4 * x) 4 = some pixel := by
  intro survive
  have init : imageInit imageNew threePixels (fun _ => 0) =
      some ⟨1, 3, 4, 1, 8, 4, some (List.replicate 12 0)⟩ := by decide
  have room : (threePixels.height.toInt - 1) * (1073741824 : Int32).toInt + 4 * threePixels.width.toInt ≤
      (List.replicate 2147483652 (0 : UInt8)).length := by
    rw [List.length_replicate]
    decide
  obtain ⟨sent, received, written, isSent, isReceived, filled, -⟩ :=
    survive threePixels imageNew _ _ init (by decide) (by decide) 1073741824 _ (by decide) room
  have sends : marshalHintImage ⟨1, 3, 4, 1, 8, 4, some (List.replicate 12 0)⟩ =
      some (imageStruct 1 3 4 true 8 4 (List.replicate 12 0)) := rfl
  rw [sends] at isSent
  obtain rfl := Option.some.inj isSent
  rw [unmarshalHintImage_struct] at isReceived
  obtain rfl := Option.some.inj isReceived
  rw [evasObjectFill, if_pos rfl] at filled
  obtain ⟨before, after, ran⟩ := Block.foldlM_ran filled (List.mem_range.mpr (by decide : 2 < 3))
  rw [fillRow] at ran
  obtain ⟨s, -, ran⟩ := Option.bind_eq_some_iff.mp ran
  obtain ⟨d, isRow, -⟩ := Option.bind_eq_some_iff.mp ran
  exact absurd (CInt.check_eq_some_iff.mp isRow).1 (by decide)

end EDBus.Notify
