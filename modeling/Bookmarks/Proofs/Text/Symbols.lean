import Bookmarks.Text.Symbols

/-! # The bytes of a text

A text is read back from its bytes, so that its symbols and those of its bytes are the
same: its characters.
-/
namespace Bookmarks.Text

theorem byteArray_loop_eq (bytes : ByteArray) (i : Nat) (before : List UInt8) :
    ByteArray.toList.loop bytes i before = before.reverse ++ bytes.data.toList.drop i := by
  fun_induction ByteArray.toList.loop bytes i before with
  | case1 i before hi ih =>
    have hsize : i < bytes.data.toList.length := hi
    have hget : bytes.get! i = bytes.data.toList[i] := by
      show bytes.data[i]! = _
      exact getElem!_pos bytes.data i hi
    rw [ih, List.reverse_cons, List.append_assoc, List.drop_eq_getElem_cons hsize, hget]
    rfl
  | case2 i before hi =>
    have hsize : bytes.data.toList.length ≤ i := Nat.le_of_not_lt hi
    rw [List.drop_eq_nil_of_le hsize, List.append_nil]

theorem utf8_eq (s : String) : utf8 s = s.toUTF8.data.toList := by
  rw [utf8, ByteArray.toList, byteArray_loop_eq]
  rfl

theorem toByteArray_utf8 (s : String) : (utf8 s).toByteArray = s.toUTF8 := by
  refine ByteArray.ext ?_
  rw [utf8_eq, List.data_toByteArray, Array.toArray_toList]

/-- **The symbols of the bytes of a text are its characters.** -/
theorem symbolsOfBytes_utf8 (s : String) : symbolsOfBytes (utf8 s) = symbols s := by
  have hread : String.fromUTF8? s.toUTF8 = some s := by
    unfold String.fromUTF8?
    rw [String.toUTF8_eq_toByteArray, dif_pos s.isValidUTF8]
    rfl
  unfold symbolsOfBytes
  rw [toByteArray_utf8, hread]

end Bookmarks.Text
