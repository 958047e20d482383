import Mathlib
import Questlog.Text.Blank
import Questlog.Proofs.Text.ByteOrder

namespace Questlog.Text

/-- A place between two characters of a text, or one of its ends. -/
def IsBoundary (text : String) (offset : Nat) : Prop :=
  (String.Pos.Raw.mk offset).IsValid text

instance (text : String) (offset : Nat) : Decidable (IsBoundary text offset) :=
  inferInstanceAs (Decidable ((String.Pos.Raw.mk offset).IsValid text))

/-- A boundary as a position in the text. -/
def IsBoundary.pos {text : String} {offset : Nat} (h : IsBoundary text offset) : text.Pos :=
  text.pos ⟨offset⟩ h

theorem IsBoundary.offset_pos {text : String} {offset : Nat} (h : IsBoundary text offset) :
    h.pos.offset = ⟨offset⟩ :=
  String.offset_pos

/-- The text between two offsets. There is none unless both are boundaries, in this order. -/
def slice? (text : String) (start stop : Nat) : Option String :=
  if h : IsBoundary text start ∧ IsBoundary text stop ∧ start ≤ stop then
    some (text.extract h.1.pos h.2.1.pos)
  else none

/-- The bytes of some characters, each as the character of its number. -/
def octets (cs : List Char) : List Char :=
  (cs.flatMap String.utf8EncodeChar).map Char.ofUInt8

/-- The bytes of a text from an offset on, each as the character of its number. -/
def octetsFrom (text : String) (offset : Nat) : List Char :=
  ((bytes text).drop offset).map Char.ofUInt8

/-- The length in bytes, character by character. -/
theorem byteLength_toList (s : String) : byteLength s.toList = s.utf8ByteSize := by
  have hsize : ∀ cs : List Char, byteLength cs = String.utf8Len cs := by
    intro cs
    induction cs with
    | nil => rfl
    | cons c cs ih => rw [byteLength_cons, String.utf8Len_cons, ih, Nat.add_comm]
  rw [hsize, ← String.utf8ByteSize_ofList, String.ofList_toList]

theorem utf8ByteSize_ofList (cs : List Char) : (String.ofList cs).utf8ByteSize = byteLength cs := by
  rw [← byteLength_toList, String.toList_ofList]

theorem byteLength_pos {cs : List Char} (h : cs ≠ []) : 0 < byteLength cs := by
  obtain ⟨c, cs, rfl⟩ := List.exists_cons_of_ne_nil h
  rw [byteLength_cons]
  exact Nat.add_pos_left c.utf8Size_pos _

/-- From the offset on a text consists of the characters `rest`. -/
def Remains (text : String) (offset : Nat) (rest : List Char) : Prop :=
  ∃ front, text.toList = front ++ rest ∧ byteLength front = offset

section Places

variable {text : String} {offset : Nat} {used rest : List Char}

theorem remains_toList (text : String) : Remains text 0 text.toList :=
  ⟨[], rfl, rfl⟩

/-- Behind some of its characters the others remain. -/
theorem Remains.append (h : Remains text offset (used ++ rest)) :
    Remains text (offset + byteLength used) rest := by
  obtain ⟨front, htext, rfl⟩ := h
  exact ⟨front ++ used, by rw [htext, List.append_assoc], byteLength_append front used⟩

theorem Remains.cons {c : Char} (h : Remains text offset (c :: rest)) :
    Remains text (offset + c.utf8Size) rest := by
  rw [← List.singleton_append] at h
  have hrest := h.append
  rwa [byteLength_cons, byteLength_nil, Nat.add_zero] at hrest

theorem Remains.size_eq (h : Remains text offset rest) :
    text.utf8ByteSize = offset + byteLength rest := by
  obtain ⟨front, htext, rfl⟩ := h
  rw [← byteLength_toList, htext, byteLength_append]

/-- A text can be cut at an offset just where one character ends and the next one starts. -/
theorem isBoundary_iff : IsBoundary text offset ↔ ∃ rest, Remains text offset rest := by
  rw [IsBoundary, String.Pos.Raw.isValid_iff_exists_append]
  constructor
  · rintro ⟨before, behind, rfl, hoffset⟩
    refine ⟨behind.toList, before.toList, String.toList_append, ?_⟩
    rw [byteLength_toList]
    exact (congrArg String.Pos.Raw.byteIdx hoffset).symm
  · rintro ⟨rest, front, htext, rfl⟩
    refine ⟨String.ofList front, String.ofList rest, ?_, ?_⟩
    · rw [← String.ofList_append, ← htext, String.ofList_toList]
    · rw [← utf8ByteSize_ofList]
      rfl

theorem Remains.isBoundary (h : Remains text offset rest) : IsBoundary text offset :=
  isBoundary_iff.mpr ⟨rest, h⟩

/-- Between the places of some characters stand just these. -/
theorem Remains.slice?_eq (h : Remains text offset (used ++ rest)) :
    slice? text offset (offset + byteLength used) = some (String.ofList used) := by
  have hstart := h.isBoundary
  have hstop := h.append.isBoundary
  obtain ⟨front, htext, rfl⟩ := h
  have hbytes : text.toByteArray = (String.ofList front).toByteArray ++
      ((String.ofList used).toByteArray ++ (String.ofList rest).toByteArray) := by
    rw [← String.toByteArray_append, ← String.toByteArray_append, ← String.ofList_append,
      ← String.ofList_append, ← htext, String.ofList_toList]
  have hsize : ∀ cs, byteLength cs = (String.ofList cs).toByteArray.size := by
    intro cs
    rw [String.size_toByteArray, utf8ByteSize_ofList]
  rw [slice?, dif_pos ⟨hstart, hstop, Nat.le_add_right _ _⟩, Option.some_inj,
    ← String.toByteArray_inj, String.toByteArray_extract, hstart.offset_pos, hstop.offset_pos,
    hbytes, hsize front, hsize used]
  calc _ = ((String.ofList used).toByteArray ++ (String.ofList rest).toByteArray).extract 0
        (String.ofList used).toByteArray.size := ByteArray.extract_append_size_add
    _ = _ := ByteArray.extract_append_eq_left rfl

/-- The slice up to the end is what remains. -/
theorem Remains.slice?_size (h : Remains text offset rest) :
    slice? text offset text.utf8ByteSize = some (String.ofList rest) := by
  rw [← List.append_nil rest] at h
  rw [h.size_eq, List.append_nil]
  exact h.slice?_eq

/-- The bytes from an offset on are those of what remains. -/
theorem Remains.octetsFrom_eq (h : Remains text offset rest) :
    octetsFrom text offset = octets rest := by
  obtain ⟨front, htext, rfl⟩ := h
  have hlength : (front.flatMap String.utf8EncodeChar).length = byteLength front := by
    rw [← String.toList_ofList (l := front), ← bytes_eq_flatMap, bytes, Array.length_toList,
      byteLength_toList]
    exact String.size_toByteArray
  rw [octetsFrom, octets, bytes_eq_flatMap, htext, List.flatMap_append, ← hlength,
    List.drop_left]

end Places

section Octets

variable {c : Char} {cs used : List Char}

/-- A character is a byte of its own number, or is spelled by bytes beyond ASCII. -/
theorem encode_cases (c : Char) :
    (c.toNat < 128 ∧ String.utf8EncodeChar c = [UInt8.ofNat c.toNat]) ∨
      (128 ≤ c.toNat ∧ ∃ b bs, String.utf8EncodeChar c = b :: bs ∧ 128 ≤ b.toNat) := by
  have hbound : c.val.toNat < 0x110000 := by
    have hvalid := c.valid
    rcases hvalid with hlow | hhigh <;> omega
  have hnat : c.toNat = c.val.toNat := rfl
  rw [String.utf8EncodeChar, hnat]
  generalize c.val.toNat = v at hbound ⊢
  split_ifs
  · exact .inl ⟨by omega, rfl⟩
  all_goals
    refine .inr ⟨by omega, _, _, rfl, ?_⟩
    rw [UInt8.toNat_ofNat']
    omega

/-- A character is a byte of its own, or is spelled by bytes beyond ASCII. -/
theorem octets_cons_cases (c : Char) (cs : List Char) :
    (c.toNat < 128 ∧ octets (c :: cs) = c :: octets cs) ∨
      (128 ≤ c.toNat ∧ ∃ b bs, octets (c :: cs) = b :: bs ∧ 128 ≤ b.toNat) := by
  rw [octets, List.flatMap_cons, List.map_append]
  rcases encode_cases c with ⟨hascii, hencode⟩ | ⟨hwide, b, bs, hencode, hb⟩
  · have hbyte : Char.ofUInt8 (UInt8.ofNat c.toNat) = c := by
      rw [← Char.toNat_inj]
      calc (Char.ofUInt8 (UInt8.ofNat c.toNat)).toNat = (UInt8.ofNat c.toNat).toNat := rfl
        _ = c.toNat := UInt8.toNat_ofNat_of_lt' (Nat.lt_trans hascii (by decide))
    exact .inl ⟨hascii, by rw [hencode, List.map_singleton, hbyte]; rfl⟩
  · refine .inr ⟨hwide, Char.ofUInt8 b, _, by rw [hencode]; rfl, ?_⟩
    exact hb

/-- ASCII characters are their own bytes. -/
theorem octets_append (h : ∀ c ∈ used, c.toNat < 128) (more : List Char) :
    octets (used ++ more) = used ++ octets more := by
  induction used with
  | nil => rfl
  | cons c used ih =>
    obtain ⟨hc, hused⟩ := List.forall_mem_cons.mp h
    rcases octets_cons_cases c (used ++ more) with ⟨-, hoctets⟩ | ⟨hwide, -⟩
    · rw [List.cons_append, hoctets, ih hused, List.cons_append]
    · exact absurd hc (Nat.not_lt.mpr hwide)

/-- No character beyond ASCII passes a test that only ASCII characters pass. -/
theorem eq_false_of_wide {p : Char → Bool} (hp : p c = true → c.toNat < 128)
    (hc : 128 ≤ c.toNat) : p c = false :=
  Bool.eq_false_iff.mpr fun h => absurd (hp h) (Nat.not_lt.mpr hc)

/-- What holds of the first character and of all that are not ASCII holds of the first byte. So a
test that only ASCII characters pass may as well be made on the bytes. -/
theorem head?_octets {P : Char → Prop} (hwide : ∀ c : Char, 128 ≤ c.toNat → P c)
    (h : ∀ c ∈ cs.head?, P c) : ∀ b ∈ (octets cs).head?, P b := by
  intro b hb
  cases cs with
  | nil => cases hb
  | cons c cs =>
    rcases octets_cons_cases c cs with ⟨-, hoctets⟩ | ⟨-, first, bs, hoctets, hfirst⟩
    · rw [hoctets] at hb
      exact h b hb
    · rw [hoctets] at hb
      obtain rfl : first = b := Option.some.inj hb
      exact hwide first hfirst

/-- ASCII characters start the bytes just if they start the characters. -/
theorem isPrefixOf_octets (hused : ∀ c ∈ used, c.toNat < 128) (cs : List Char) :
    used.isPrefixOf (octets cs) = used.isPrefixOf cs := by
  induction used generalizing cs with
  | nil => rfl
  | cons d used ih =>
    obtain ⟨hd, hused⟩ := List.forall_mem_cons.mp hused
    cases cs with
    | nil => rfl
    | cons c cs =>
      rcases octets_cons_cases c cs with ⟨-, hoctets⟩ | ⟨hwide, b, bs, hoctets, hb⟩
      · rw [hoctets, List.isPrefixOf_cons_cons, List.isPrefixOf_cons_cons, ih hused]
      · have hfar : ∀ {e : Char}, 128 ≤ e.toNat → (d == e) = false := by
          intro e he
          rw [beq_eq_false_iff_ne]
          rintro rfl
          omega
        rw [hoctets, List.isPrefixOf_cons_cons, List.isPrefixOf_cons_cons, hfar hb, hfar hwide,
          Bool.false_and, Bool.false_and]

end Octets

end Questlog.Text
