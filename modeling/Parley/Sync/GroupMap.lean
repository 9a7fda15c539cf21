/-!
# Maps over groups

A `GroupMap` holds a value for some groups, in ascending order of their numbers. The order is part
of the type, so two maps with the same entries are equal. Main statements: `get?_set` and
`ext_get?`.
-/

namespace Parley

namespace GroupMap

/-- Puts an entry at its place in an ascending list, in the place of an entry of the same group. -/
def insertEntry {α : Type} (g : Int64) (a : α) : List (Int64 × α) → List (Int64 × α)
  | [] => [(g, a)]
  | (h, b) :: rest =>
    if g < h then (g, a) :: (h, b) :: rest
    else if g = h then (g, a) :: rest
    else (h, b) :: insertEntry g a rest

theorem mem_insertEntry {α : Type} {g : Int64} {a : α} {e : Int64 × α} {l : List (Int64 × α)}
    (h : e ∈ insertEntry g a l) : e = (g, a) ∨ e ∈ l := by
  induction l with
  | nil => simpa [insertEntry] using h
  | cons b rest ih =>
    obtain ⟨k, b⟩ := b
    simp only [insertEntry] at h
    split at h
    · simpa using h
    · split at h
      · simp only [List.mem_cons] at h ⊢
        exact h.imp_right Or.inr
      · simp only [List.mem_cons] at h ⊢
        rcases h with h | h
        · exact Or.inr (Or.inl h)
        · exact (ih h).imp_right Or.inr

theorem lt_of_not_lt_of_ne {g h : Int64} (hlt : ¬ g < h) (hne : g ≠ h) : h < g := by
  rw [Int64.lt_iff_toInt_lt] at *
  have : g.toInt ≠ h.toInt := fun e => hne (Int64.toInt_inj.mp e)
  omega

theorem pairwise_insertEntry {α : Type} (g : Int64) (a : α) {l : List (Int64 × α)}
    (h : l.Pairwise (fun x y => x.1 < y.1)) :
    (insertEntry g a l).Pairwise (fun x y => x.1 < y.1) := by
  induction l with
  | nil => simp [insertEntry]
  | cons b rest ih =>
    obtain ⟨k, b⟩ := b
    have hrest := List.pairwise_cons.mp h
    simp only [insertEntry]
    split
    · rename_i hlt
      refine List.pairwise_cons.mpr ⟨fun e he => ?_, h⟩
      rcases List.mem_cons.mp he with rfl | he
      · exact hlt
      · exact Int64.lt_trans hlt (hrest.1 e he)
    · split
      · rename_i heq
        subst heq
        exact List.pairwise_cons.mpr hrest
      · rename_i hnlt hne
        refine List.pairwise_cons.mpr ⟨fun e he => ?_, ih hrest.2⟩
        rcases mem_insertEntry he with rfl | he
        · exact lt_of_not_lt_of_ne hnlt hne
        · exact hrest.1 e he

end GroupMap

/-- Values for some groups, in ascending order of the groups. -/
structure GroupMap (α : Type) where
  entries : List (Int64 × α)
  ascending : entries.Pairwise (fun a b => a.1 < b.1)
deriving DecidableEq

namespace GroupMap

variable {α β : Type}

/-- The map without a group. -/
def empty : GroupMap α := ⟨[], List.Pairwise.nil⟩

instance : EmptyCollection (GroupMap α) := ⟨empty⟩

instance : Inhabited (GroupMap α) := ⟨empty⟩

/-- The value of a group. -/
def get? (m : GroupMap α) (g : Int64) : Option α :=
  (m.entries.find? (·.1 = g)).map (·.2)

def contains (m : GroupMap α) (g : Int64) : Bool := (m.get? g).isSome

/-- Gives a group a value, a new one if it has one. -/
def set (m : GroupMap α) (g : Int64) (a : α) : GroupMap α :=
  ⟨insertEntry g a m.entries, pairwise_insertEntry g a m.ascending⟩

def groups (m : GroupMap α) : List Int64 := m.entries.map (·.1)

def values (m : GroupMap α) : List α := m.entries.map (·.2)

def map (f : α → β) (m : GroupMap α) : GroupMap β where
  entries := m.entries.map fun e => (e.1, f e.2)
  ascending := List.pairwise_map.mpr m.ascending

/-- The map of a list of entries; of two for the same group the later counts. -/
def ofList (l : List (Int64 × α)) : GroupMap α :=
  l.foldl (fun m e => m.set e.1 e.2) empty

theorem find?_insertEntry (g h : Int64) (a : α) {l : List (Int64 × α)}
    (hl : l.Pairwise (fun x y => x.1 < y.1)) :
    ((insertEntry g a l).find? (·.1 = h)).map (·.2) =
      if g = h then some a else (l.find? (·.1 = h)).map (·.2) := by
  induction l with
  | nil => by_cases e : g = h <;> simp [insertEntry, e]
  | cons b rest ih =>
    obtain ⟨k, b⟩ := b
    have hrest := List.pairwise_cons.mp hl
    simp only [insertEntry]
    split
    · by_cases e : g = h <;> simp [List.find?_cons, e]
    · split
      · rename_i hgk
        subst hgk
        by_cases e : g = h <;> simp [e]
      · rename_i hne
        by_cases e : k = h
        · subst e
          simp [hne]
        · have hk : ((k, b) :: rest).find? (·.1 = h) = rest.find? (·.1 = h) := by
            simp [e]
          have hk' : ((k, b) :: insertEntry g a rest).find? (·.1 = h) =
              (insertEntry g a rest).find? (·.1 = h) := by
            simp [e]
          rw [hk, hk', ih hrest.2]

/-- Setting a group changes that group and no other. -/
theorem get?_set (m : GroupMap α) (g h : Int64) (a : α) :
    (m.set g a).get? h = if g = h then some a else m.get? h :=
  find?_insertEntry g h a m.ascending

theorem find?_eq_none_of_lt {g : Int64} {l : List (Int64 × α)} (h : ∀ e ∈ l, g < e.1) :
    l.find? (·.1 = g) = none := by
  refine List.find?_eq_none.mpr fun e he heq => ?_
  have hlt := h e he
  simp only [decide_eq_true_eq] at heq
  rw [heq] at hlt
  exact Int64.lt_irrefl hlt

theorem entries_ext {l k : List (Int64 × α)} (hl : l.Pairwise (fun x y => x.1 < y.1))
    (hk : k.Pairwise (fun x y => x.1 < y.1))
    (h : ∀ g, (l.find? (·.1 = g)).map (·.2) = (k.find? (·.1 = g)).map (·.2)) : l = k := by
  induction l generalizing k with
  | nil =>
    cases k with
    | nil => rfl
    | cons e k => simpa using h e.1
  | cons d l ih =>
    cases k with
    | nil => simpa using h d.1
    | cons e k =>
      have hl' := List.pairwise_cons.mp hl
      have hk' := List.pairwise_cons.mp hk
      have hfirst : d.1 = e.1 := by
        rcases Decidable.em (d.1 < e.1) with hlt | hge
        · have hnone : (e :: k).find? (·.1 = d.1) = none :=
            find?_eq_none_of_lt fun x hx => by
              rcases List.mem_cons.mp hx with rfl | hx
              · exact hlt
              · exact Int64.lt_trans hlt (hk'.1 x hx)
          have hd := h d.1
          rw [hnone] at hd
          simp at hd
        · rcases Decidable.em (d.1 = e.1) with heq | hne
          · exact heq
          · have hlt := lt_of_not_lt_of_ne hge hne
            have hnone : (d :: l).find? (·.1 = e.1) = none :=
              find?_eq_none_of_lt fun x hx => by
                rcases List.mem_cons.mp hx with rfl | hx
                · exact hlt
                · exact Int64.lt_trans hlt (hl'.1 x hx)
            have he := h e.1
            rw [hnone] at he
            simp at he
      have hvalue : d.2 = e.2 := by simpa [hfirst] using h e.1
      have htail : l = k := by
        refine ih hl'.2 hk'.2 fun g => ?_
        rcases Decidable.em (e.1 = g) with heq | hne
        · subst heq
          rw [find?_eq_none_of_lt hk'.1, find?_eq_none_of_lt (hfirst ▸ hl'.1)]
        · have hg := h g
          have hd : ¬ d.1 = g := hfirst ▸ hne
          simpa [hne, hd] using hg
      rw [htail, Prod.ext hfirst hvalue]

theorem ext_get? {m n : GroupMap α} (h : ∀ g, m.get? g = n.get? g) : m = n := by
  obtain ⟨l, hl⟩ := m
  obtain ⟨k, hk⟩ := n
  have hlk : l = k := entries_ext hl hk h
  subst hlk
  rfl

end GroupMap

end Parley
