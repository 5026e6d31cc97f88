import SecureMessenger.Lib.Base64

/-!
# UTF-8

`TextEncoder` and a fatal `TextDecoder` of the WHATWG standard, on strings of
Unicode scalar values and lists of bytes.  The decoder takes a byte order mark
at the start for a sign of the encoding and drops it.
-/

namespace SecureMessenger
namespace Lib
namespace Utf8

open Base64 (Bytes)

/-- The bytes of an array. -/
def ofByteArray (bytes : ByteArray) : Bytes :=
  bytes.data.toList.map fun b => ⟨b.toNat, b.toNat_lt⟩

/-- The array with these bytes. -/
def toByteArray (bytes : Bytes) : ByteArray :=
  ⟨(bytes.map fun b => UInt8.ofNat b.val).toArray⟩

/-- `new TextEncoder().encode(text)`. -/
def encode (text : String) : Bytes :=
  ofByteArray text.toUTF8

/-- Decoding without regard to a byte order mark; `none` if the bytes are not
well formed. -/
def decodeWithoutBom (bytes : Bytes) : Option String :=
  String.fromUTF8? (toByteArray bytes)

/-- U+FEFF. -/
def bom : Char := Char.ofNat 65279

/-- Its bytes. -/
def bomBytes : Bytes := [239, 187, 191]

/-- `new TextDecoder('utf-8', { fatal: true }).decode(bytes)`; `none` is the
exception. -/
def decode (bytes : Bytes) : Option String :=
  if bytes.take 3 = bomBytes then decodeWithoutBom (bytes.drop 3) else decodeWithoutBom bytes

theorem toByteArray_ofByteArray (bytes : ByteArray) : toByteArray (ofByteArray bytes) = bytes := by
  unfold toByteArray ofByteArray
  rw [List.map_map]
  have hid : (fun b : Fin 256 => UInt8.ofNat b.val) ∘
      (fun b : UInt8 => (⟨b.toNat, b.toNat_lt⟩ : Fin 256)) = id := by
    funext b
    exact UInt8.ofNat_toNat
  rw [hid, List.map_id, Array.toArray_toList]

theorem decodeWithoutBom_encode (text : String) : decodeWithoutBom (encode text) = some text := by
  unfold decodeWithoutBom encode
  rw [toByteArray_ofByteArray, String.toUTF8_eq_toByteArray, String.fromUTF8?,
    dif_pos text.isValidUTF8]
  exact congrArg some (String.toByteArray_inj.mp rfl)

theorem encode_append (s t : String) : encode (s ++ t) = encode s ++ encode t := by
  unfold encode ofByteArray
  rw [String.toUTF8_eq_toByteArray, String.toByteArray_append, ByteArray.data_append,
    Array.toList_append, List.map_append]
  rfl

theorem encode_bom : encode (String.singleton bom) = bomBytes := by
  have hchar : String.utf8EncodeChar bom = [239, 187, 191] := by decide
  have hbytes : (String.singleton bom).toUTF8 = (String.utf8EncodeChar bom).toByteArray := by
    rw [← List.utf8Encode_singleton]
    rfl
  rw [encode, hbytes, hchar, ofByteArray, List.data_toByteArray]
  rfl

/-- A text that starts with the mark loses it. -/
theorem decode_bom (text : String) :
    decode (encode (String.singleton bom ++ text)) = some text := by
  have htake : (bomBytes ++ encode text).take 3 = bomBytes := rfl
  have hdrop : (bomBytes ++ encode text).drop 3 = encode text := rfl
  rw [decode, encode_append, encode_bom, if_pos htake, hdrop, decodeWithoutBom_encode]

theorem toByteArray_append (a b : Bytes) :
    toByteArray (a ++ b) = toByteArray a ++ toByteArray b := by
  apply ByteArray.ext
  rw [ByteArray.data_append]
  simp [toByteArray]

/-- The bytes of the mark come from the mark. -/
theorem eq_bom_append {text : String} (h : (encode text).take 3 = bomBytes) :
    ∃ rest, text = String.singleton bom ++ rest := by
  have hmark : toByteArray bomBytes = [bom].utf8Encode := by
    rw [← encode_bom, encode, toByteArray_ofByteArray]
    rfl
  have hbytes : text.toList.utf8Encode =
      [bom].utf8Encode ++ toByteArray ((encode text).drop 3) := by
    rw [← String.toByteArray_ofList, String.ofList_toList, ← String.toUTF8_eq_toByteArray,
      ← toByteArray_ofByteArray text.toUTF8, ← hmark, ← toByteArray_append, ← h,
      List.take_append_drop]
    rfl
  have hdecoded := List.utf8Decode?_utf8Encode (l := text.toList)
  rw [hbytes, ByteArray.utf8Decode?_utf8Encode_singleton_append] at hdecoded
  obtain ⟨rest, -, hrest⟩ := Option.map_eq_some_iff.mp hdecoded
  refine ⟨String.ofList rest.toList, String.toList_inj.mp ?_⟩
  have hlist := congrArg Array.toList hrest
  rw [String.toList_append, String.toList_ofList]
  simpa using hlist.symm

/-- **What the decoder reads of what the encoder writes.** -/
theorem decode_encode_iff (text : String) :
    decode (encode text) = some text ↔ text.toList.head? ≠ some bom := by
  by_cases hmark : (encode text).take 3 = bomBytes
  · obtain ⟨rest, rfl⟩ := eq_bom_append hmark
    rw [decode_bom]
    constructor
    · intro hrest
      have hlength := congrArg String.length (Option.some.inj hrest)
      simp at hlength
    · intro hhead
      simp at hhead
  · rw [decode, if_neg hmark, decodeWithoutBom_encode]
    refine iff_of_true rfl fun hhead => hmark ?_
    obtain ⟨rest, hrest⟩ : ∃ rest, text.toList = bom :: rest := by
      cases hlist : text.toList with
      | nil => simp [hlist] at hhead
      | cons c rest => exact ⟨rest, by simpa [hlist] using hhead⟩
    have htext : text = String.singleton bom ++ String.ofList rest := by
      rw [← String.toList_inj, String.toList_append, String.toList_ofList, hrest]
      simp
    rw [htext, encode_append, encode_bom]
    rfl

end Utf8
end Lib
end SecureMessenger
