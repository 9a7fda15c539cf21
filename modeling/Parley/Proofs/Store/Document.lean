import Mathlib.Tactic
import Parley.Sync.Document

/-!
# Reading stored cursors back

The document of stored cursors reads as the cursors that were written. The parts of the document are
read one by one, each with whatever follows it still behind it. Main statement:
`Cursors.parse?_render`.
-/

namespace Parley

/-! ## Numbers -/

namespace Text

lemma digit?_of_isDigit {c : Char} (h : c.isDigit = true) :
    digit? 10 c = some (c.toNat - '0'.toNat) := by
  simp only [Char.isDigit, Bool.and_eq_true, decide_eq_true_eq] at h
  have hbounds : '0' ≤ c ∧ c ≤ '9' := h
  have hvalue : c.toNat - '0'.toNat < 10 := by
    have hle : c.toNat ≤ '9'.toNat := hbounds.2
    change c.toNat ≤ 57 at hle
    change c.toNat - 48 < 10
    omega
  rw [digit?, if_pos hbounds, if_pos hvalue]

lemma foldlM_digits (n : Nat) {cs : List Char} (h : ∀ c ∈ cs, c.isDigit = true) :
    cs.foldlM (fun n c => (digit? 10 c).map (n * 10 + ·)) n = some (Nat.ofDigitChars 10 cs n) := by
  induction cs generalizing n with
  | nil => simp
  | cons c cs ih =>
    rw [List.foldlM_cons, digit?_of_isDigit (h c (by simp)), Nat.ofDigitChars_cons, Nat.mul_comm]
    exact ih _ (fun c hc => h c (by simp [hc]))

lemma isDigit_of_mem_toDigits {n : Nat} {c : Char} (hc : c ∈ Nat.toDigits 10 n) :
    c.isDigit = true :=
  Nat.isDigit_of_mem_toDigits (by omega) (by omega) hc

lemma ofDigits?_toDigits (n : Nat) : ofDigits? 10 (Nat.toDigits 10 n) = some n := by
  rw [ofDigits?, if_neg (by simp), foldlM_digits 0 fun c hc => isDigit_of_mem_toDigits hc,
    Nat.ofDigitChars_ten_toDigits]

lemma eq_zero_of_toDigits {n : Nat} {cs : List Char} (h : Nat.toDigits 10 n = '0' :: cs) :
    n = 0 := by
  induction n using Nat.strong_induction_on generalizing cs with
  | h n ih =>
    rw [Nat.toDigits_eq_if (by omega)] at h
    split at h
    · rename_i hlt
      have hvalue := Nat.toNat_digitChar_sub_48_of_lt_ten hlt
      rw [(List.cons.inj h).1] at hvalue
      exact hvalue.symm
    · rename_i hge
      obtain ⟨front, hfront⟩ : ∃ front, Nat.toDigits 10 (n / 10) = '0' :: front := by
        cases hdigits : Nat.toDigits 10 (n / 10) with
        | nil => exact absurd hdigits Nat.toDigits_ne_nil
        | cons c front =>
          rw [hdigits] at h
          exact ⟨front, by rw [(List.cons.inj h).1]⟩
      have hzero := ih (n / 10) (by omega) hfront
      omega

lemma toInt64?_toInt (i : Int64) : toInt64? i.toInt = some i := by
  rw [toInt64?, if_pos ⟨i.minValue_le_toInt, i.toInt_le⟩, Int64.ofInt_toInt]

end Text

namespace Json

/-- What may stand behind a number: something that does not belong to it. -/
def EndsNumber (cs : List Char) : Prop :=
  ∀ c ∈ cs.head?, c.isDigit = false ∧ c ≠ '.' ∧ c ≠ 'e' ∧ c ≠ 'E'

lemma takeWhile_digits {n : Nat} {rest : List Char} (hrest : EndsNumber rest) :
    (Nat.toDigits 10 n ++ rest).takeWhile Char.isDigit = Nat.toDigits 10 n ∧
      (Nat.toDigits 10 n ++ rest).dropWhile Char.isDigit = rest := by
  have hdigits : ∀ c ∈ Nat.toDigits 10 n, c.isDigit = true := fun c hc =>
    Text.isDigit_of_mem_toDigits hc
  have htake : rest.takeWhile Char.isDigit = [] ∧ rest.dropWhile Char.isDigit = rest := by
    cases rest with
    | nil => exact ⟨rfl, rfl⟩
    | cons c rest =>
      obtain ⟨hc, -⟩ := hrest c (by simp)
      simp [hc]
  rw [List.takeWhile_append_of_pos hdigits, List.dropWhile_append_of_pos hdigits, htake.1, htake.2]
  simp

lemma takeSign_digits (n : Nat) (rest : List Char) :
    takeSign (Nat.toDigits 10 n ++ rest) = (false, Nat.toDigits 10 n ++ rest) := by
  rw [takeSign]
  intro more h
  cases hdigits : Nat.toDigits 10 n with
  | nil => exact absurd hdigits Nat.toDigits_ne_nil
  | cons c front =>
    have hc : c.isDigit = true := Text.isDigit_of_mem_toDigits (n := n) (by simp [hdigits])
    rw [hdigits] at h
    rw [(List.cons.inj h).1] at hc
    cases hc

lemma leavesWhole_of_ends {rest : List Char} (h : EndsNumber rest) : leavesWhole rest = true := by
  cases rest with
  | nil => rfl
  | cons c rest =>
    obtain ⟨-, hdot, hlower, hupper⟩ := h c (by simp)
    rw [leavesWhole]
    · intro more h
      exact hdot (List.cons.inj h).1
    · intro more h
      exact hlower (List.cons.inj h).1
    · intro more h
      exact hupper (List.cons.inj h).1

lemma isCanonical_digits {negative : Bool} {n : Nat} (h : negative = true → n ≠ 0) :
    isCanonical negative (Nat.toDigits 10 n) = true := by
  by_cases hn : n = 0
  · subst hn
    cases negative with
    | false => rfl
    | true => exact absurd rfl (h rfl)
  · rw [isCanonical]
    · intro hzero
      exact hn (Text.eq_zero_of_toDigits hzero)
    · intro more hzero
      exact hn (Text.eq_zero_of_toDigits hzero)

lemma readInt64_eq {cs : List Char} {negative : Bool} {n : Nat} {i : Int64} {rest : List Char}
    (hsign : takeSign cs = (negative, Nat.toDigits 10 n ++ rest)) (hrest : EndsNumber rest)
    (hnegative : negative = true → n ≠ 0)
    (hvalue : (if negative then -(n : Int) else n) = i.toInt) : readInt64 cs = some (i, rest) := by
  obtain ⟨htake, hdrop⟩ := takeWhile_digits (n := n) hrest
  simp only [readInt64, hsign, htake, hdrop, leavesWhole_of_ends hrest,
    isCanonical_digits hnegative, Bool.and_self, if_true, Text.ofDigits?_toDigits]
  simp [hvalue, Text.toInt64?_toInt]

theorem readInt64_int64Text (i : Int64) {rest : List Char} (hrest : EndsNumber rest) :
    readInt64 ((Cursors.int64Text i).toList ++ rest) = some (i, rest) := by
  rw [Cursors.int64Text, Int.toString_eq_repr, Int.repr_eq_if]
  split
  · rename_i hnonneg
    have hsign := takeSign_digits i.toInt.toNat rest
    rw [Nat.toList_repr]
    refine readInt64_eq hsign hrest (by simp) ?_
    rw [if_neg Bool.false_ne_true]
    exact Int.toNat_of_nonneg hnonneg
  · rename_i hneg
    have hsign : takeSign ('-' :: (Nat.toDigits 10 (-i.toInt).toNat ++ rest)) =
        (true, Nat.toDigits 10 (-i.toInt).toNat ++ rest) := rfl
    rw [String.toList_append, Nat.toList_repr]
    exact readInt64_eq hsign hrest (by omega) (by simp; omega)

/-! ## Blanks -/

lemma skipBlanks_cons_of_blank {c : Char} (h : isBlank c = true) (cs : List Char) :
    skipBlanks (c :: cs) = skipBlanks cs := by
  rw [skipBlanks, List.dropWhile_cons_of_pos h]
  rfl

lemma skipBlanks_cons {c : Char} (h : isBlank c = false) (cs : List Char) :
    skipBlanks (c :: cs) = c :: cs := by
  rw [skipBlanks, List.dropWhile_cons_of_neg (by simp [h])]

lemma skipBlanks_int64Text (i : Int64) (rest : List Char) :
    skipBlanks ((Cursors.int64Text i).toList ++ rest) =
      (Cursors.int64Text i).toList ++ rest := by
  have hdigits : ∀ n : Nat, skipBlanks (Nat.toDigits 10 n ++ rest) = Nat.toDigits 10 n ++ rest := by
    intro n
    cases hdigits : Nat.toDigits 10 n with
    | nil => exact absurd hdigits Nat.toDigits_ne_nil
    | cons c front =>
      have hc : c.isDigit = true := Text.isDigit_of_mem_toDigits (n := n) (by simp [hdigits])
      refine skipBlanks_cons ?_ _
      simp only [isBlank, Bool.or_eq_false_iff, beq_eq_false_iff_ne]
      refine ⟨⟨⟨?_, ?_⟩, ?_⟩, ?_⟩ <;> (rintro rfl; cases hc)
  rw [Cursors.int64Text, Int.toString_eq_repr, Int.repr_eq_if]
  split
  · rw [Nat.toList_repr]
    exact hdigits _
  · rw [String.toList_append]
    exact skipBlanks_cons rfl _

end Json

/-! ## Groups -/

namespace Cursors

open Json

/-- An entry as it stands on its line. -/
def entryText (e : Int64 × Int64) : List Char :=
  '"' :: (int64Text e.1).toList ++ '"' :: ':' :: ' ' :: (int64Text e.2).toList

lemma toList_groupLine (e : Int64 × Int64) :
    (groupLine e).toList = ' ' :: ' ' :: ' ' :: ' ' :: entryText e := by
  simp [groupLine, entryText]

lemma readGroup_entryText (e : Int64 × Int64) {rest : List Char} (hrest : EndsNumber rest) :
    readGroup (entryText e ++ rest) = some (e, rest) := by
  have hquote : ∀ more, EndsNumber ('"' :: more) := by
    intro more c hc
    obtain rfl : '"' = c := by simpa using hc
    decide
  have htext : entryText e ++ rest =
      '"' :: ((int64Text e.1).toList ++ '"' :: ':' :: ' ' :: ((int64Text e.2).toList ++ rest)) := by
    simp [entryText]
  rw [htext, readGroup, readInt64_int64Text e.1 (hquote _)]
  simp [skipBlanks_cons, skipBlanks_cons_of_blank, isBlank, skipBlanks_int64Text,
    readInt64_int64Text e.2 hrest]

/-- The lines behind the first one, with the comma before each. -/
def moreLines (es : List (Int64 × Int64)) : List Char :=
  es.flatMap fun e => ',' :: '\n' :: ' ' :: ' ' :: ' ' :: ' ' :: entryText e

lemma toList_intercalate_groupLine (e : Int64 × Int64) (es : List (Int64 × Int64)) :
    (",\n".intercalate ((e :: es).map groupLine)).toList =
      (groupLine e).toList ++ moreLines es := by
  induction es generalizing e with
  | nil => simp [moreLines]
  | cons f es ih =>
    rw [List.map_cons, List.map_cons, String.intercalate_cons_cons, String.toList_append,
      String.toList_append, ← List.map_cons, ih f, toList_groupLine f]
    simp [moreLines]

lemma length_le_moreLines (es : List (Int64 × Int64)) : es.length ≤ (moreLines es).length := by
  induction es with
  | nil => exact Nat.le_refl 0
  | cons e es ih =>
    rw [moreLines, List.flatMap_cons, List.length_append, ← moreLines, List.length_cons,
      List.length_cons]
    omega

lemma endsNumber_moreLines (es : List (Int64 × Int64)) (rest : List Char) :
    EndsNumber (moreLines es ++ '\n' :: rest) := by
  intro c hc
  cases es with
  | nil =>
    obtain rfl : '\n' = c := by simpa [moreLines] using hc
    decide
  | cons e es =>
    obtain rfl : ',' = c := by simpa [moreLines] using hc
    decide

lemma readMoreGroups_moreLines (groups : GroupMap Int64) (es : List (Int64 × Int64))
    (rest : List Char) {fuel : Nat} (hfuel : es.length < fuel) :
    readMoreGroups fuel groups (moreLines es ++ '\n' :: ' ' :: ' ' :: '\x7d' :: rest) =
      some (es.foldl (fun m e => m.set e.1 e.2) groups, rest) := by
  induction es generalizing fuel groups with
  | nil =>
    obtain ⟨fuel, rfl⟩ := Nat.exists_eq_add_of_lt hfuel
    simp [moreLines, readMoreGroups, skipBlanks_cons, skipBlanks_cons_of_blank, isBlank]
  | cons e es ih =>
    obtain ⟨fuel, rfl⟩ := Nat.exists_eq_add_of_lt hfuel
    have hlines : moreLines (e :: es) ++ '\n' :: ' ' :: ' ' :: '\x7d' :: rest =
        ',' :: '\n' :: ' ' :: ' ' :: ' ' :: ' ' ::
          (entryText e ++ (moreLines es ++ '\n' :: ' ' :: ' ' :: '\x7d' :: rest)) := by
      simp [moreLines]
    have hblanks : ∀ cs, skipBlanks ('\n' :: ' ' :: ' ' :: ' ' :: ' ' :: (entryText e ++ cs)) =
        entryText e ++ cs := by
      intro cs
      simp [skipBlanks_cons, skipBlanks_cons_of_blank, isBlank, entryText]
    rw [hlines, readMoreGroups, skipBlanks_cons rfl]
    simp only [Option.bind_eq_bind]
    rw [hblanks, readGroup_entryText e (endsNumber_moreLines es _)]
    refine ih _ ?_
    rw [List.length_cons]
    omega

/-- Entries in ascending order, put in one after another, are the map that they come from. -/
lemma foldl_set_entries (groups : GroupMap Int64) :
    groups.entries.foldl (fun m e => m.set e.1 e.2) GroupMap.empty = groups := by
  have hget : ∀ (l : List (Int64 × Int64)), l.Pairwise (fun x y => x.1 < y.1) →
      ∀ (m : GroupMap Int64) (g : Int64), (l.foldl (fun m e => m.set e.1 e.2) m).get? g =
        ((l.find? (·.1 = g)).map (·.2)).or (m.get? g) := by
    intro l hl
    induction l with
    | nil => exact fun m g => rfl
    | cons e l ih =>
      intro m g
      obtain ⟨hfirst, hrest⟩ := List.pairwise_cons.mp hl
      rw [List.foldl_cons, ih hrest, GroupMap.get?_set]
      by_cases hg : e.1 = g
      · subst hg
        rw [GroupMap.find?_eq_none_of_lt hfirst]
        simp
      · simp [hg]
  refine GroupMap.ext_get? fun g => ?_
  rw [hget _ groups.ascending]
  simp [GroupMap.get?, GroupMap.empty]

lemma readGroups_renderGroups (groups : GroupMap Int64) (rest : List Char) :
    readGroups ((renderGroups groups).toList ++ rest) = some (groups, rest) := by
  cases hentries : groups.entries with
  | nil =>
    have hempty : groups = .empty := by
      rw [← foldl_set_entries groups, hentries]
      rfl
    rw [hempty]
    rfl
  | cons e es =>
    have htext : (renderGroups groups).toList ++ rest =
        '\x7b' :: '\n' :: ' ' :: ' ' :: ' ' :: ' ' ::
          (entryText e ++ (moreLines es ++ '\n' :: ' ' :: ' ' :: '\x7d' :: rest)) := by
      rw [renderGroups, hentries, if_neg (by simp), String.toList_append, String.toList_append,
        toList_intercalate_groupLine, toList_groupLine]
      simp
    have hblanks : ∀ cs, skipBlanks ('\n' :: ' ' :: ' ' :: ' ' :: ' ' :: (entryText e ++ cs)) =
        entryText e ++ cs := by
      intro cs
      simp [skipBlanks_cons, skipBlanks_cons_of_blank, isBlank, entryText]
    have hfuel : es.length <
        (moreLines es ++ '\n' :: ' ' :: ' ' :: '\x7d' :: rest).length := by
      have hlines := length_le_moreLines es
      rw [List.length_append, List.length_cons]
      omega
    rw [htext, readGroups, skipBlanks_cons rfl]
    simp only [hblanks, Option.bind_eq_bind]
    split
    · rename_i more hmore
      simp [entryText] at hmore
    · rw [readGroup_entryText e (endsNumber_moreLines es _)]
      have hread := readMoreGroups_moreLines (GroupMap.empty.set e.1 e.2) es rest hfuel
      have hfold := foldl_set_entries groups
      rw [hentries, List.foldl_cons] at hfold
      rw [hfold] at hread
      exact hread

/-! ## The document -/

lemma readMember_direct (key : Int64) {rest : List Char} (hrest : EndsNumber rest) :
    readMember {} ('"' :: ("direct".toList ++
      '"' :: ':' :: ' ' :: ((int64Text key).toList ++ rest))) =
      some ({ direct := some key }, rest) := by
  have hname : ∀ more, readString ("direct".toList ++ '"' :: more) =
      some ("direct".toList, more) := fun more => rfl
  rw [readMember, hname]
  -- As variables, so that the names are not compared letter by letter.
  generalize "direct".toList = direct
  generalize "groups".toList = name
  simp [skipBlanks_cons, skipBlanks_cons_of_blank, isBlank, skipBlanks_int64Text,
    readInt64_int64Text key hrest]

lemma readMember_groups (m : Members) (groups : GroupMap Int64) (rest : List Char)
    (hm : m.groups = none) :
    readMember m ('"' :: ("groups".toList ++
      '"' :: ':' :: ' ' :: ((renderGroups groups).toList ++ rest))) =
      some ({ m with groups := some groups }, rest) := by
  have hname : ∀ more, readString ("groups".toList ++ '"' :: more) =
      some ("groups".toList, more) := fun more => rfl
  have hblanks : skipBlanks ((renderGroups groups).toList ++ rest) =
      (renderGroups groups).toList ++ rest := by
    rw [renderGroups]
    split
    · rfl
    · simp [skipBlanks_cons, isBlank]
  have hother : "groups".toList ≠ "direct".toList := by decide
  rw [readMember, hname]
  generalize "direct".toList = direct at hother ⊢
  generalize "groups".toList = name at hother ⊢
  simp [skipBlanks_cons, skipBlanks_cons_of_blank, isBlank, hblanks, hother, hm,
    readGroups_renderGroups groups rest]

/-- What stands behind the first member of a document. -/
def groupsText (groups : GroupMap Int64) : List Char :=
  ',' :: '\n' :: ' ' :: ' ' :: '"' :: ("groups".toList ++
    '"' :: ':' :: ' ' :: ((renderGroups groups).toList ++ ['\n', '\x7d']))

lemma skipBlanks_quote (more : List Char) :
    skipBlanks ('\n' :: ' ' :: ' ' :: '"' :: more) = '"' :: more := by
  simp [skipBlanks_cons, skipBlanks_cons_of_blank, isBlank]

lemma readMoreMembers_groupsText (m : Members) (groups : GroupMap Int64) (hm : m.groups = none) :
    readMoreMembers (groupsText groups).length m (groupsText groups) =
      some ({ m with groups := some groups }, []) := by
  obtain ⟨fuel, hfuel⟩ : ∃ fuel, (groupsText groups).length = fuel + 1 + 1 := ⟨_, rfl⟩
  rw [hfuel, readMoreMembers, groupsText, skipBlanks_cons rfl]
  simp only [Option.bind_eq_bind]
  rw [skipBlanks_quote, readMember_groups m groups _ hm]
  rfl

/-- Stored cursors read as they were written. -/
theorem parse?_render (c : Cursors) : parse? c.render = some c := by
  have htext : c.render.toList = '\x7b' :: '\n' :: ' ' :: ' ' :: '"' :: ("direct".toList ++
      '"' :: ':' :: ' ' :: ((int64Text c.direct).toList ++ groupsText c.groups)) := by
    -- The equation of `render` would compare its literals letter by letter.
    delta render
    simp [groupsText]
  have hends : EndsNumber (groupsText c.groups) := by
    intro d hd
    obtain rfl : ',' = d := by simpa [groupsText] using hd
    decide
  have hobject : ∀ more, readObject ('\n' :: ' ' :: ' ' :: '"' :: more) =
      (readMember {} ('"' :: more)).bind fun first =>
        (readMoreMembers first.2.length first.1 first.2).bind fun last =>
          last.1.cursors?.bind fun cursors => some (cursors, last.2) := by
    intro more
    rw [readObject, skipBlanks_quote]
    rfl
  rw [parse?, htext, skipBlanks_cons rfl]
  simp only [hobject, Option.bind_eq_bind]
  rw [readMember_direct c.direct hends]
  simp only [Option.bind_some]
  rw [readMoreMembers_groupsText _ _ rfl]
  rfl

end Cursors

end Parley
