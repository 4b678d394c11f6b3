/-!
# Sorted association lists

A finite map as a list of keys with values in increasing order of the keys, each key once. The order is given as a strict
comparison.
-/

namespace QuantityCalculus.SortedList

variable {κ α : Type}

/-- The list with a value for a key: `combine` makes it of the value that the key had, and `new` stands where it had none. -/
def insertWith (lt : κ → κ → Bool) (key : κ) (new : α) (combine : α → α) : List (κ × α) → List (κ × α)
  | [] => [(key, new)]
  | (k, x) :: rest =>
    if lt key k then (key, new) :: (k, x) :: rest
    else if lt k key then (k, x) :: insertWith lt key new combine rest
    else (k, combine x) :: rest

/-- The list with a value in the place of the one that the key had. -/
def insert (lt : κ → κ → Bool) (key : κ) (new : α) (entries : List (κ × α)) : List (κ × α) :=
  insertWith lt key new (fun _ => new) entries

/-- The value of a key. -/
def get? [BEq κ] (key : κ) (entries : List (κ × α)) : Option α :=
  entries.lookup key

/-- The order of texts by their characters. -/
def textLT (s t : String) : Bool := s < t

/-- The keys increase. -/
def Increasing (lt : κ → κ → Bool) (entries : List (κ × α)) : Prop :=
  entries.Pairwise fun x y => lt x.1 y.1 = true

/-- The keys after an insertion are the key that was inserted and the keys before. -/
theorem mem_keys_insertWith {lt : κ → κ → Bool} {key : κ} {new : α} {combine : α → α} {entries : List (κ × α)}
    {x : κ × α} (h : x ∈ insertWith lt key new combine entries) : x.1 = key ∨ ∃ y ∈ entries, y.1 = x.1 := by
  induction entries with
  | nil =>
    obtain rfl := List.mem_singleton.1 h
    exact .inl rfl
  | cons entry rest ih =>
    obtain ⟨k, y⟩ := entry
    rw [insertWith] at h
    split at h
    · rcases List.mem_cons.1 h with rfl | h
      · exact .inl rfl
      · exact .inr ⟨x, h, rfl⟩
    split at h
    · rcases List.mem_cons.1 h with rfl | h
      · exact .inr ⟨_, List.mem_cons_self .., rfl⟩
      · rcases ih h with h | ⟨z, hz, hkey⟩
        · exact .inl h
        · exact .inr ⟨z, List.mem_cons_of_mem _ hz, hkey⟩
    · rcases List.mem_cons.1 h with rfl | h
      · exact .inr ⟨_, List.mem_cons_self .., rfl⟩
      · exact .inr ⟨x, List.mem_cons_of_mem _ h, rfl⟩

/-- An insertion keeps the keys increasing. -/
theorem Increasing.insertWith {lt : κ → κ → Bool} (htrans : ∀ {a b c}, lt a b = true → lt b c = true → lt a c = true)
    {entries : List (κ × α)} (h : Increasing lt entries) (key : κ) (new : α) (combine : α → α) :
    Increasing lt (insertWith lt key new combine entries) := by
  induction entries with
  | nil => exact List.pairwise_singleton _ _
  | cons entry rest ih =>
    obtain ⟨k, y⟩ := entry
    obtain ⟨hk, hrest⟩ := List.pairwise_cons.1 h
    rw [SortedList.insertWith]
    split
    · rename_i hlt
      refine List.pairwise_cons.2 ⟨fun x hx => ?_, h⟩
      rcases List.mem_cons.1 hx with rfl | hx
      · exact hlt
      · exact htrans hlt (hk x hx)
    split
    · rename_i hlt
      refine List.pairwise_cons.2 ⟨fun x hx => ?_, ih hrest⟩
      rcases mem_keys_insertWith hx with hx | ⟨z, hz, hx⟩
      · rw [hx]
        exact hlt
      · rw [← hx]
        exact hk z hz
    · exact List.pairwise_cons.2 ⟨hk, hrest⟩

/-- What holds of the new value, and of each combined one, holds of all values after an insertion if it did before. -/
theorem forall_mem_insertWith {lt : κ → κ → Bool} {p : α → Prop} {key : κ} {new : α} {combine : α → α} (hnew : p new)
    (hcombine : ∀ x, p x → p (combine x)) {entries : List (κ × α)} (h : ∀ entry ∈ entries, p entry.2) :
    ∀ entry ∈ insertWith lt key new combine entries, p entry.2 := by
  induction entries with
  | nil => exact List.forall_mem_singleton.2 hnew
  | cons entry rest ih =>
    obtain ⟨k, x⟩ := entry
    obtain ⟨hx, hrest⟩ := List.forall_mem_cons.1 h
    rw [SortedList.insertWith]
    split
    · exact List.forall_mem_cons.2 ⟨hnew, h⟩
    split
    · exact List.forall_mem_cons.2 ⟨hx, ih hrest⟩
    · exact List.forall_mem_cons.2 ⟨hcombine x hx, hrest⟩

/-- No text is before itself. -/
theorem textLT_irrefl (s : String) : textLT s s = false :=
  decide_eq_false (String.lt_irrefl s)

/-- The order of texts is transitive. -/
theorem textLT_trans {s t u : String} (h : textLT s t = true) (h' : textLT t u = true) : textLT s u = true := by
  simp only [textLT, decide_eq_true_eq] at *
  exact String.lt_trans h h'

/-- Of two texts, one is before the other at most. -/
theorem textLT_asymm {s t : String} (h : textLT s t = true) : textLT t s = false := by
  simp only [textLT, decide_eq_true_eq, decide_eq_false_iff_not] at *
  exact String.lt_asymm h

/-- Texts of which neither is before the other are equal. -/
theorem eq_of_not_textLT {s t : String} (h : textLT s t = false) (h' : textLT t s = false) : s = t := by
  simp only [textLT, decide_eq_false_iff_not] at h h'
  exact String.le_antisymm (String.not_lt.1 h') (String.not_lt.1 h)

/-- Lists in increasing order with the same members are equal. -/
theorem eq_of_mem_iff {lt : κ → κ → Prop} (hasymm : ∀ {a b}, lt a b → ¬lt b a) {l m : List κ} (hl : l.Pairwise lt)
    (hm : m.Pairwise lt) (h : ∀ a, a ∈ l ↔ a ∈ m) : l = m := by
  have hnodup {l : List κ} (hl : l.Pairwise lt) : l.Nodup := by
    refine hl.imp fun {a b} hlt heq => ?_
    rw [heq] at hlt
    exact hasymm hlt hlt
  have hperm : l.Perm m := (List.perm_ext_iff_of_nodup (hnodup hl) (hnodup hm)).2 h
  exact hperm.eq_of_pairwise (fun a b _ _ hab hba => absurd hba (hasymm hab)) hl hm

/-- The keys after an insertion, exactly, in an order that tells keys apart. -/
theorem mem_map_fst_insertWith_iff {lt : κ → κ → Bool} (heq : ∀ {a b}, lt a b = false → lt b a = false → a = b) {key k : κ} {new : α}
    {combine : α → α} {entries : List (κ × α)} :
    k ∈ (insertWith lt key new combine entries).map (·.1) ↔ k = key ∨ k ∈ entries.map (·.1) := by
  induction entries with
  | nil => simp only [insertWith, List.map_cons, List.map_nil, List.mem_singleton, List.not_mem_nil, or_false]
  | cons entry rest ih =>
    obtain ⟨k', x⟩ := entry
    rw [insertWith]
    split
    · simp only [List.map_cons, List.mem_cons]
    · rename_i hbefore
      split
      · simp only [List.map_cons, List.mem_cons, ih]
        exact or_left_comm
      · rename_i hafter
        obtain rfl := heq (Bool.eq_false_iff.2 hbefore) (Bool.eq_false_iff.2 hafter)
        simp only [List.map_cons, List.mem_cons, or_self_left]

/-- Where the keys increase, a key has a value exactly if it is listed with it. -/
theorem get?_eq_some_iff_mem [BEq κ] [LawfulBEq κ] {lt : κ → κ → Bool} (hirrefl : ∀ a, lt a a = false) {entries : List (κ × α)}
    (h : Increasing lt entries) {key : κ} {x : α} : get? key entries = some x ↔ (key, x) ∈ entries := by
  induction entries with
  | nil => simp [get?]
  | cons entry rest ih =>
    obtain ⟨k, y⟩ := entry
    obtain ⟨hk, hrest⟩ := List.pairwise_cons.1 h
    simp only [get?, List.lookup_cons] at ih ⊢
    by_cases hkey : key = k
    · subst hkey
      have hnot : (key, x) ∉ rest := by
        intro hx
        have hlt := hk _ hx
        rw [hirrefl] at hlt
        nomatch hlt
      simp [hnot, eq_comm]
    · simp [beq_eq_false_iff_ne.2 hkey, hkey, ih hrest]

section Lookup

variable [BEq κ] [LawfulBEq κ] {lt : κ → κ → Bool} (heq : ∀ {a b}, lt a b = false → lt b a = false → a = b)

include heq

/-- An insertion leaves the values of the other keys. -/
theorem get?_insertWith_of_ne {key k : κ} (h : k ≠ key) (new : α) (combine : α → α) (entries : List (κ × α)) :
    get? k (insertWith lt key new combine entries) = get? k entries := by
  have hbeq : (k == key) = false := beq_eq_false_iff_ne.2 h
  induction entries with
  | nil => simp only [get?, insertWith, List.lookup_cons, hbeq]
  | cons entry rest ih =>
    obtain ⟨k', x⟩ := entry
    rw [insertWith]
    split
    · simp only [get?, List.lookup_cons, hbeq]
    · rename_i hbefore
      split
      · simp only [get?, List.lookup_cons] at ih ⊢
        rw [ih]
      · rename_i hafter
        obtain rfl := heq (Bool.eq_false_iff.2 hbefore) (Bool.eq_false_iff.2 hafter)
        simp only [get?, List.lookup_cons, hbeq]

/-- An insertion gives its key the new value. -/
theorem get?_insert_self (key : κ) (new : α) (entries : List (κ × α)) : get? key (insert lt key new entries) = some new := by
  unfold insert
  induction entries with
  | nil => simp only [get?, insertWith, List.lookup_cons, beq_self_eq_true]
  | cons entry rest ih =>
    obtain ⟨k, x⟩ := entry
    rw [insertWith]
    split
    · simp only [get?, List.lookup_cons, beq_self_eq_true]
    · rename_i hbefore
      split
      · rename_i hafter
        have hne : key ≠ k := by
          rintro rfl
          exact hbefore hafter
        simp only [get?, List.lookup_cons, beq_eq_false_iff_ne.2 hne] at ih ⊢
        exact ih
      · rename_i hafter
        obtain rfl := heq (Bool.eq_false_iff.2 hbefore) (Bool.eq_false_iff.2 hafter)
        simp only [get?, List.lookup_cons, beq_self_eq_true]

/-- Where the keys increase, an insertion gives its key the new value or combines the value that the key had. -/
theorem get?_insertWith_self (hirrefl : ∀ a, lt a a = false) (htrans : ∀ {a b c}, lt a b = true → lt b c = true → lt a c = true)
    {entries : List (κ × α)} (h : Increasing lt entries) (key : κ) (new : α) (combine : α → α) :
    get? key (insertWith lt key new combine entries) = some (((get? key entries).map combine).getD new) := by
  induction entries with
  | nil => simp only [get?, insertWith, List.lookup_cons, beq_self_eq_true, List.lookup_nil, Option.map_none, Option.getD_none]
  | cons entry rest ih =>
    obtain ⟨k, x⟩ := entry
    obtain ⟨hk, hrest⟩ := List.pairwise_cons.1 h
    have hne {k' : κ} (hlt : lt key k' = true) : (key != k') = true := by
      rw [bne_iff_ne]
      rintro rfl
      rw [hirrefl] at hlt
      nomatch hlt
    rw [insertWith]
    split
    · rename_i hbefore
      have hnone : get? key ((k, x) :: rest) = none := by
        refine List.lookup_eq_none_iff.2 fun y hy => ?_
        rcases List.mem_cons.1 hy with rfl | hy
        · exact hne hbefore
        · exact hne (htrans hbefore (hk y hy))
      rw [hnone]
      simp only [get?, List.lookup_cons, beq_self_eq_true, Option.map_none, Option.getD_none]
    · rename_i hbefore
      split
      · rename_i hafter
        have hne : key ≠ k := by
          rintro rfl
          exact hbefore hafter
        simp only [get?, List.lookup_cons, beq_eq_false_iff_ne.2 hne] at ih ⊢
        exact ih hrest
      · rename_i hafter
        obtain rfl := heq (Bool.eq_false_iff.2 hbefore) (Bool.eq_false_iff.2 hafter)
        simp only [get?, List.lookup_cons, beq_self_eq_true, Option.map_some, Option.getD_some]

end Lookup

end QuantityCalculus.SortedList
