import SectorFS.Directory.Name

/-!
# Names and their stored form

`NameField.ofName` takes exactly the names of `ValidName`, and `toName_encode` reads every one of
them back, character by character.
-/

namespace SectorFS

/-- What a file or directory may be called. -/
structure ValidName (name : String) : Prop where
  nonempty : name.toList ≠ []
  no_separator : '/' ∉ name.toList
  no_zero : '\x00' ∉ name.toList
  length_le : (Text.encodeUtf8 name).length ≤ nameLimit

namespace Text

theorem decodeChars_flatMap (chars : List Char) :
    decodeChars (chars.flatMap String.utf8EncodeChar) = chars := by
  induction chars with
  | nil => rw [List.flatMap_nil, decodeChars]
  | cons c chars ih =>
    have length : (String.utf8EncodeChar c).length = c.utf8Size := String.length_utf8EncodeChar c
    have positive := c.utf8Size_pos
    rw [List.flatMap_cons]
    cases he : String.utf8EncodeChar c with
    | nil =>
      rw [he, List.length_nil] at length
      omega
    | cons lead rest =>
      rw [he, List.length_cons] at length
      have first :
          ((lead :: rest) ++ chars.flatMap String.utf8EncodeChar).toByteArray.utf8DecodeChar? 0 =
            some c := by
        rw [List.toByteArray_append, ← he]
        exact ByteArray.utf8DecodeChar?_utf8EncodeChar_append
      rw [List.cons_append] at first ⊢
      rw [decodeChars, first]
      simp only
      simp [show c.utf8Size - 1 = rest.length by omega, ih]

theorem decodeUtf8_encodeUtf8 (text : String) : decodeUtf8 (encodeUtf8 text) = text := by
  simp [decodeUtf8, encodeUtf8, decodeChars_flatMap, String.ofList_toList]

theorem length_encodeUtf8 (text : String) : (encodeUtf8 text).length = text.utf8ByteSize := by
  rw [← String.size_toByteArray, ← String.utf8Encode_toList, List.utf8Encode,
    List.size_toByteArray]
  rfl

/-- A zero byte stands for the zero character alone. -/
theorem zero_notMem_utf8EncodeChar {c : Char} (h : c ≠ '\x00') : 0 ∉ String.utf8EncodeChar c := by
  have value : c.val.toNat ≠ 0 := fun hz => h (Char.ext (UInt32.toNat_inj.mp hz))
  have nonzero (k : Nat) (hk : k % 256 ≠ 0) : (0 : UInt8) ≠ UInt8.ofNat k := by
    intro he
    have := congrArg UInt8.toNat he
    rw [UInt8.toNat_ofNat'] at this
    exact hk this.symm
  intro hm
  simp only [String.utf8EncodeChar] at hm
  split at hm
  · simp only [List.mem_singleton] at hm
    exact nonzero _ (by omega) hm
  · split at hm
    · simp only [List.mem_cons, List.not_mem_nil, or_false] at hm
      rcases hm with hm | hm
      all_goals exact nonzero _ (by omega) hm
    · split at hm
      all_goals
        simp only [List.mem_cons, List.not_mem_nil, or_false] at hm
        rcases hm with hm | hm | hm
      all_goals first
        | exact nonzero _ (by omega) hm
        | rcases hm with hm | hm <;> exact nonzero _ (by omega) hm

end Text

namespace NameField

/-- The bytes of a name, filled up with zeros. -/
def encode (name : String) : NameField := .ofFn fun i => (Text.encodeUtf8 name).getD i 0

theorem ofName_of_valid {name : String} (h : ValidName name) : ofName name = .ok (encode name) := by
  have clean : (name.toList.isEmpty || name.toList.contains '/' ||
      name.toList.contains '\x00') = false := by
    simp only [Bool.or_eq_false_iff, List.isEmpty_eq_false_iff, List.contains_eq_mem,
      decide_eq_false_iff_not]
    exact ⟨⟨h.nonempty, h.no_separator⟩, h.no_zero⟩
  unfold ofName
  simp only [clean, Bool.false_eq_true, if_false]
  rw [if_neg (Nat.not_lt.mpr h.length_le)]
  rfl

/-- The checks of a name, in their order. -/
theorem ofName_checks (name : String) :
    ofName name =
      if name.toList = [] ∨ '/' ∈ name.toList ∨ '\x00' ∈ name.toList then
        .error (.invalidArgument (.fileName name))
      else if nameLimit < (Text.encodeUtf8 name).length then .error .nameTooLong
      else .ok (encode name) := by
  have checked : (name.toList.isEmpty || name.toList.contains '/' ||
      name.toList.contains '\x00') = true ↔
        name.toList = [] ∨ '/' ∈ name.toList ∨ '\x00' ∈ name.toList := by
    simp [or_assoc]
  simp only [ofName, checked]
  rfl

theorem ofName_eq {name : String} (whole : '/' ∉ name.toList) :
    ofName name =
      if name.toList = [] ∨ '\x00' ∈ name.toList then
        .error (.invalidArgument (.fileName name))
      else if nameLimit < (Text.encodeUtf8 name).length then .error .nameTooLong
      else .ok (encode name) := by
  simp only [ofName_checks, whole, false_or]

theorem ofName_eq_ok_iff {name : String} {field : NameField} :
    ofName name = .ok field ↔ ValidName name ∧ field = encode name := by
  constructor
  · intro h
    rw [ofName] at h
    split at h
    · cases h
    · rename_i clean
      split at h
      · cases h
      · rename_i short
        simp only [Bool.not_eq_true, Bool.or_eq_false_iff, List.contains_eq_mem,
          decide_eq_false_iff_not, List.isEmpty_eq_false_iff] at clean
        exact ⟨⟨clean.1.1, clean.1.2, clean.2, Nat.not_lt.mp short⟩, (Except.ok.inj h).symm⟩
  · rintro ⟨h, rfl⟩
    exact ofName_of_valid h

theorem toList_encode {name : String} (h : ValidName name) :
    (encode name).toList = Text.encodeUtf8 name ++
      List.replicate (nameLimit - (Text.encodeUtf8 name).length) 0 := by
  have := h.length_le
  apply List.ext_getElem
  · rw [Vector.length_toList, List.length_append, List.length_replicate]
    omega
  · intro i hi hi'
    have byte : (encode name).toList[i] = (Text.encodeUtf8 name).getD i 0 := by
      simp [encode]
    rw [byte, List.getD_eq_getElem?_getD]
    by_cases hb : i < (Text.encodeUtf8 name).length
    · rw [List.getElem?_eq_getElem hb, List.getElem_append_left hb]
      rfl
    · rw [List.getElem?_eq_none (Nat.not_lt.mp hb), List.getElem_append_right (Nat.not_lt.mp hb),
        List.getElem_replicate]
      rfl

/-- A name is read back from its field. -/
theorem toName_encode {name : String} (h : ValidName name) : (encode name).toName = name := by
  have letters : ∀ b ∈ Text.encodeUtf8 name, (b != 0) = true := by
    intro b hb
    obtain ⟨c, hc, hbc⟩ := List.mem_flatMap.mp hb
    have : c ≠ '\x00' := fun e => h.no_zero (e ▸ hc)
    simp only [bne_iff_ne, ne_eq]
    rintro rfl
    exact Text.zero_notMem_utf8EncodeChar this hbc
  have padding (k : Nat) : (List.replicate k (0 : UInt8)).takeWhile (· != 0) = [] := by
    cases k <;> rfl
  rw [toName, toList_encode h, List.takeWhile_append_of_pos letters, padding, List.append_nil,
    Text.decodeUtf8_encodeUtf8]

theorem encode_inj {a b : String} (ha : ValidName a) (hb : ValidName b) :
    encode a = encode b ↔ a = b :=
  ⟨fun h => by rw [← toName_encode ha, h, toName_encode hb], fun h => h ▸ rfl⟩

end NameField

end SectorFS
