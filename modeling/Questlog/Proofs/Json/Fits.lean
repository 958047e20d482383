import Questlog.Json.Parser
import Questlog.Proofs.Entries

namespace Questlog.Json

/-- The value nests at most `room` arrays and objects, and the names in each object are distinct. -/
def Fits : (room : Nat) → Json → Prop
  | _, null | _, bool _ | _, number _ | _, string _ => True
  | 0, array _ | 0, object _ => False
  | room + 1, array items => ∀ item ∈ items, Fits room item
  | room + 1, object members =>
    (Entries.names members).Nodup ∧ ∀ member ∈ members, Fits room member.2

section Readers

variable {value : ValueReader} {P : Json → Prop} {input : List Token}

/-- What holds of every value that a reader gives holds of the items. -/
theorem forall_of_readItems
    (hvalue : ∀ input (r : Reading Json input), value input = some r → P r.value)
    {r : Reading (List Json) input} (h : readItems value input = some r) :
    ∀ item ∈ r.value, P item := by
  fun_induction readItems value input with
  | case1 => cases h
  | case2 input item rest hlt hread =>
    obtain rfl := Option.some.inj h
    exact List.forall_mem_singleton.mpr (hvalue input _ hread)
  | case3 => cases h
  | case4 input item rest hlt hread items hitems ih =>
    obtain rfl := Option.some.inj h
    exact List.forall_mem_cons.mpr ⟨hvalue input _ hread, ih hitems⟩
  | case5 => cases h

/-- What holds of every value that a reader gives holds of the values of the members. -/
theorem forall_of_readMembers
    (hvalue : ∀ input (r : Reading Json input), value input = some r → P r.value)
    {r : Reading (List (String × Json)) input} (h : readMembers value input = some r) :
    ∀ member ∈ r.value, P member.2 := by
  fun_induction readMembers value input with
  | case1 => cases h
  | case2 name more item rest hlt hread =>
    obtain rfl := Option.some.inj h
    exact List.forall_mem_singleton.mpr (hvalue more _ hread)
  | case3 => cases h
  | case4 name more item rest hlt hread members hmembers ih =>
    obtain rfl := Option.some.inj h
    exact List.forall_mem_cons.mpr ⟨hvalue more _ hread, ih hmembers⟩
  | case5 => cases h
  | case6 => cases h

/-- A value fits if the values inside it fit one level less. -/
theorem fits_of_readValueWith {room : Nat} {inner : Option ValueReader}
    (hinner : ∀ value ∈ inner, ∃ below, room = below + 1 ∧
      ∀ input (r : Reading Json input), value input = some r → Fits below r.value)
    {r : Reading Json input} (h : readValueWith inner input = some r) : Fits room r.value := by
  fun_cases readValueWith inner input with
  | case1 | case2 | case3 | case4 =>
    obtain rfl := Option.some.inj h
    simp [Reading.ofHead, Fits]
  | case5 rest value =>
    obtain ⟨below, rfl, -⟩ := hinner value rfl
    obtain rfl := Option.some.inj h
    exact List.forall_mem_nil _
  | case6 rest value hrest =>
    obtain ⟨below, rfl, hvalue⟩ := hinner value rfl
    rw [readValueWith.eq_6 _ _ hrest, Option.map_eq_some_iff] at h
    obtain ⟨items, hitems, rfl⟩ := h
    exact forall_of_readItems hvalue hitems
  | case7 rest value =>
    obtain ⟨below, rfl, -⟩ := hinner value rfl
    obtain rfl := Option.some.inj h
    exact ⟨List.nodup_nil, List.forall_mem_nil _⟩
  | case8 rest value hrest =>
    obtain ⟨below, rfl, hvalue⟩ := hinner value rfl
    rw [readValueWith.eq_8 _ _ hrest, Option.map_eq_some_iff] at h
    obtain ⟨members, hmembers, rfl⟩ := h
    have hfits := forall_of_readMembers hvalue hmembers
    exact ⟨Entries.nodup_names_ofList _, fun member hmember =>
      hfits member (Entries.ofList_subset _ hmember)⟩
  | case9 =>
    rw [readValueWith.eq_9] at h
    · cases h
    all_goals assumption

end Readers

/-- Every value that is read fits the room it was given. -/
theorem fits_of_readValue {room : Nat} {input : List Token} {r : Reading Json input}
    (h : readValue room input = some r) : Fits room r.value := by
  induction room generalizing input with
  | zero => exact fits_of_readValueWith (fun value hvalue => by cases hvalue) h
  | succ room ih =>
    apply fits_of_readValueWith ?_ h
    intro value hvalue
    obtain rfl := Option.some.inj hvalue
    exact ⟨room, rfl, fun _ _ => ih⟩

/-- A text is parsed if it consists of tokens and all of them make one value. -/
theorem tokens_of_parse? {text : String} {room : Nat} {json : Json}
    (h : parse? text room = some json) :
    ∃ input hlt, tokens text.toList = (input, true) ∧
      readValue room input = some ⟨json, [], hlt⟩ := by
  unfold parse? at h
  split at h
  · next input htokens =>
    split at h
    · next value hlt hread =>
      obtain rfl := Option.some.inj h
      exact ⟨input, hlt, htokens, hread⟩
    · cases h
  · cases h

/-- A value that is parsed nests no deeper than there was room, and in each of its objects every
name stands once. -/
theorem fits_of_parse? {text : String} {room : Nat} {json : Json}
    (h : parse? text room = some json) : Fits room json := by
  obtain ⟨input, hlt, -, hread⟩ := tokens_of_parse? h
  exact fits_of_readValue hread

end Questlog.Json
