import Parley.Proofs.Store.Document
import Parley.Proofs.Wire.Bodies
import Parley.Store.CursorStore

/-!
# What a store keeps

A store that has saved cursors loads them. Whether a save that fails leaves what is loaded as it was
depends on the path of the file: it does unless the draft stands where the file should
(`CursorStore.failsSafely_of_draft_ne`).
-/

namespace Parley

/-! ## Folders -/

section Except
variable {ε α β : Type}

@[simp] lemma error_bind (e : ε) (k : α → Except ε β) : (Except.error e >>= k) = .error e := rfl

@[simp] lemma throw_bind (e : ε) (k : α → Except ε β) :
    ((throw e : Except ε α) >>= k) = .error e := rfl

@[simp] lemma throw_eq (e : ε) : (throw e : Except ε α) = .error e := rfl

@[simp] lemma pure_eq (a : α) : (pure a : Except ε α) = .ok a := rfl

end Except

namespace Folder

lemma lookup_filter_ne {names names' : List String} (h : names' ≠ names)
    (entries : List (List String × Item)) :
    (entries.filter (·.1 ≠ names)).lookup names' = entries.lookup names' := by
  induction entries with
  | nil => rfl
  | cons e entries ih =>
    obtain ⟨key, item⟩ := e
    by_cases hkey : key = names
    · subst hkey
      have hne : (names' == key) = false := by simpa using h
      rw [List.filter_cons_of_neg (by simp), ih, List.lookup_cons, hne]
    · rw [List.filter_cons_of_pos (by simp [hkey]), List.lookup_cons, List.lookup_cons, ih]

lemma item?_put_self (f : Folder) {names : List String} (h : names ≠ []) (item : Item) :
    (f.put names item).item? names = some item := by
  simp [item?, put, h]

lemma item?_put_ne (f : Folder) {names names' : List String} (h : names' ≠ names) (item : Item) :
    (f.put names item).item? names' = f.item? names' := by
  have hne : (names' == names) = false := by simpa using h
  simp only [item?, put, List.lookup_cons, hne, lookup_filter_ne h]

lemma item?_erase_ne (f : Folder) {names names' : List String} (h : names' ≠ names) :
    (f.erase names).item? names' = f.item? names' := by
  simp only [item?, erase, lookup_filter_ne h]

lemma walk_cons (f : Folder) (here : List String) (name : String) (rest : List String) :
    f.walk here (name :: rest) =
      if maxName < name.utf8ByteSize then .error .nameTooLong
      else
        match f.item? (here ++ [name]), rest with
        | none, _ => .error .notFound
        | some (.file content), [] => .ok (.file content)
        | some (.file _), _ => .error .notADirectory
        | some .folder, _ => f.walk (here ++ [name]) rest :=
  walk.eq_def f here (name :: rest)

lemma walk_congr {f g : Folder} {here names : List String}
    (h : ∀ front, front <+: names → front ≠ [] →
      f.item? (here ++ front) = g.item? (here ++ front)) :
    f.walk here names = g.walk here names := by
  induction names generalizing here with
  | nil => rfl
  | cons name rest ih =>
    have hname := h [name] (by simp) (by simp)
    have hrest : f.walk (here ++ [name]) rest = g.walk (here ++ [name]) rest := by
      refine ih fun front hfront hne => ?_
      have hmore := h (name :: front) (by simpa using hfront) (by simp)
      simpa using hmore
    rw [walk_cons, walk_cons, hname, hrest]

lemma item?_of_walk {f : Folder} {here names : List String} {content : Bytes}
    (h : f.walk here names = .ok (.file content)) :
    f.item? (here ++ names) = some (.file content) := by
  induction names generalizing here with
  | nil => cases h
  | cons name rest ih =>
    rw [walk_cons] at h
    split at h
    · cases h
    · split at h
      · cases h
      · rename_i content' hitem
        cases h
        exact hitem
      · cases h
      · have hrest := ih h
        simpa using hrest

lemma walk_concat {f : Folder} {here names : List String} {name : String} {content : Bytes}
    (h : f.walk here names = .ok .folder) (hname : ¬ maxName < name.utf8ByteSize)
    (hitem : f.item? (here ++ (names ++ [name])) = some (.file content)) :
    f.walk here (names ++ [name]) = .ok (.file content) := by
  induction names generalizing here with
  | nil =>
    rw [List.nil_append] at hitem ⊢
    rw [walk_cons, if_neg hname, hitem]
  | cons first rest ih =>
    rw [List.cons_append, walk_cons]
    rw [walk_cons] at h
    split at h
    · cases h
    · rename_i hfirst
      rw [if_neg hfirst]
      split at h
      · cases h
      · cases h
      · cases h
      · rename_i hfolder
        rw [hfolder]
        exact ih h (by simpa using hitem)

lemma find_eq_file {f : Folder} {p : Path} {content : Bytes} :
    f.find p = .ok (.file content) ↔
      p.holdsNul = false ∧ f.walk [] p.names = .ok (.file content) ∧ p.slash = false := by
  rw [find]
  cases p.holdsNul with
  | true => simp
  | false =>
    cases f.walk [] p.names with
    | error fault => simp
    | ok item =>
      cases item with
      | folder => simp
      | file content' => cases p.slash <;> simp

lemma checkParent_ok {f : Folder} {p : Path} (h : f.checkParent p = .ok ()) (hne : p.names ≠ []) :
    p.holdsNul = false ∧ ∃ front name, p.names = front ++ [name] ∧
      f.walk [] front = .ok .folder ∧ ¬ maxName < name.utf8ByteSize := by
  rw [checkParent] at h
  cases hnul : p.holdsNul with
  | true => simp [hnul] at h
  | false =>
    have hnames := List.dropLast_append_getLast hne
    refine ⟨rfl, p.names.dropLast, p.names.getLast hne, hnames.symm, ?_⟩
    cases hwalk : f.walk [] p.names.dropLast with
    | error fault => simp [hnul, hwalk] at h
    | ok item =>
      cases item with
      | file content => simp [hnul, hwalk] at h
      | folder =>
        refine ⟨rfl, fun hlong => ?_⟩
        by_cases hempty : p.names.getLast hne = ""
        · simp [hnul, hwalk, List.getLast?_eq_some_getLast hne, hempty] at h
        · simp [hnul, hwalk, List.getLast?_eq_some_getLast hne, hempty, hlong] at h

end Folder

/-! ## Files -/

namespace CursorFile

lemma length_draft (p : Path) : (draft p).names.length = p.names.length := by
  rw [draft, Path.withEnding]
  split
  · rfl
  · rename_i name hname
    split
    · rfl
    · cases hnames : p.names with
      | nil => simp [hnames] at hname
      | cons first rest => simp

lemma stage_ok {p : Path} {c : Cursors} {f staged : Folder} (h : stage p c f = .ok staged) :
    staged = f.put (draft p).names (.file (Bytes.ofString c.render)) := by
  rw [stage, Folder.write] at h
  cases hparent : f.checkParent (draft p) with
  | error fault => simp [hparent] at h
  | ok u =>
    cases hitem : f.item? (draft p).names with
    | none =>
      cases hslash : (draft p).slash with
      | true => simp [hparent, hitem, hslash] at h
      | false =>
        simp [hparent, hitem, hslash] at h
        exact h.symm
    | some item =>
      cases item with
      | folder => simp [hparent, hitem] at h
      | file content =>
        cases hslash : (draft p).slash with
        | true => simp [hparent, hitem, hslash] at h
        | false =>
          simp [hparent, hitem, hslash] at h
          exact h.symm

lemma publish_ok {p : Path} {f f' : Folder} (h : publish p f = .ok f') :
    ∃ content, f.find (draft p) = .ok (.file content) ∧ f.checkParent p = .ok () ∧
      p.slash = false ∧ f' = (f.erase (draft p).names).put p.names (.file content) := by
  rw [publish, Folder.rename] at h
  cases hfind : f.find (draft p) with
  | error fault => simp [hfind] at h
  | ok item =>
    cases item with
    | folder => simp [hfind] at h
    | file content =>
      cases hparent : f.checkParent p with
      | error fault => simp [hfind, hparent] at h
      | ok u =>
        cases hslash : p.slash with
        | true => simp [hfind, hparent, hslash] at h
        | false =>
          by_cases hitem : f.item? p.names = some .folder
          · simp [hfind, hparent, hslash, hitem] at h
          · simp [hfind, hparent, hslash, hitem] at h
            exact ⟨content, rfl, rfl, rfl, h.symm⟩

lemma load_of_find {p : Path} {c : Cursors} {f : Folder}
    (h : f.find p = .ok (.file (Bytes.ofString c.render))) : load p f = .ok c := by
  have hread : f.read p = .ok (Bytes.ofString c.render) := by
    rw [Folder.read, h]
    rfl
  simp only [load, hread, decode_ofString, Cursors.parse?_render]

theorem load_of_save {p : Path} {c : Cursors} {f f' : Folder} (h : save p c f = (.ok (), f')) :
    load p f' = .ok c := by
  rw [save] at h
  cases hstage : stage p c f with
  | error fault => simp [hstage] at h
  | ok staged =>
    cases hpublish : publish p staged with
    | error fault => simp [hstage, hpublish] at h
    | ok published =>
      simp only [hstage, hpublish, Prod.mk.injEq, true_and] at h
      subst h
      obtain rfl := stage_ok hstage
      obtain ⟨content, hfind, hparent, hslash, rfl⟩ := publish_ok hpublish
      obtain ⟨-, hwalk, -⟩ := Folder.find_eq_file.mp hfind
      have hlength := length_draft p
      have hdraft : (draft p).names ≠ [] := by
        intro hnil
        rw [hnil] at hwalk
        cases hwalk
      have hne : p.names ≠ [] := by
        intro hnil
        rw [hnil, List.length_nil] at hlength
        exact hdraft (List.length_eq_zero_iff.mp hlength)
      obtain ⟨hnul, front, name, hnames, hfront, hname⟩ := Folder.checkParent_ok hparent hne
      have hcontent := Folder.item?_of_walk hwalk
      rw [List.nil_append, Folder.item?_put_self _ hdraft] at hcontent
      cases hcontent
      refine load_of_find (Folder.find_eq_file.mpr ⟨hnul, ?_, hslash⟩)
      have hitem := Folder.item?_put_self
        ((f.put (draft p).names (.file (Bytes.ofString c.render))).erase (draft p).names) hne
        (.file (Bytes.ofString c.render))
      rw [hnames] at hitem hlength ⊢
      refine Folder.walk_concat ?_ hname hitem
      rw [← hfront]
      refine Folder.walk_congr fun names hfront hne' => ?_
      -- on the way to the file there is neither the draft nor the file itself
      have hshort : names.length < (front ++ [name]).length := by
        have hle := hfront.length_le
        simp
        omega
      have hnotFile : [] ++ names ≠ front ++ [name] := by
        rintro rfl
        exact absurd hshort (Nat.lt_irrefl _)
      have hnotDraft : [] ++ names ≠ (draft p).names := by
        rintro rfl
        exact absurd hlength hshort.ne
      rw [Folder.item?_put_ne _ hnotFile, Folder.item?_erase_ne _ hnotDraft]

lemma load_of_stage {p : Path} {c : Cursors} {f staged : Folder}
    (hdraft : (draft p).names ≠ p.names) (h : stage p c f = .ok staged) :
    load p staged = load p f := by
  obtain rfl := stage_ok h
  have hlength := length_draft p
  have hwalk : (f.put (draft p).names (.file (Bytes.ofString c.render))).walk [] p.names =
      f.walk [] p.names := by
    refine Folder.walk_congr fun names hfront hne => Folder.item?_put_ne _ ?_ _
    rintro rfl
    exact hdraft (hfront.eq_of_length hlength)
  simp only [load, Folder.read, Folder.find, hwalk]

lemma load_of_failed {p : Path} {c : Cursors} {f f' : Folder} {e : Error}
    (hdraft : (draft p).names ≠ p.names) (h : save p c f = (.error e, f')) :
    load p f' = load p f := by
  rw [save] at h
  cases hstage : stage p c f with
  | error fault =>
    simp only [hstage, Prod.mk.injEq] at h
    rw [h.2]
  | ok staged =>
    cases hpublish : publish p staged with
    | ok published => simp [hstage, hpublish] at h
    | error fault =>
      simp only [hstage, hpublish, Prod.mk.injEq] at h
      rw [← h.2, load_of_stage hdraft hstage]

end CursorFile

/-! ## Stores -/

namespace CursorStore

/-- A save that fails leaves what the store loads as it was. -/
def FailsSafely (s : CursorStore) : Prop :=
  ∀ path folder, s.backing = .file path folder → ∀ c f e f',
    CursorFile.save path c f = (.error e, f') → CursorFile.load path f' = CursorFile.load path f

lemma failsSafely_memory (c : Cursors) : (memory c).FailsSafely := by
  intro path folder hbacking
  cases hbacking

theorem failsSafely_of_draft_ne {s : CursorStore} {path : Path} {folder : Folder}
    (hbacking : s.backing = .file path folder) (h : (CursorFile.draft path).names ≠ path.names) :
    s.FailsSafely := by
  intro path' folder' hbacking' c f e f' hsave
  rw [hbacking] at hbacking'
  cases hbacking'
  exact CursorFile.load_of_failed h hsave

section Save
variable {s : CursorStore} {c : Cursors}

lemma FailsSafely.save (h : s.FailsSafely) (c : Cursors) : (s.save c).2.FailsSafely := by
  intro path folder hbacking
  obtain ⟨backing, refuses, loadFault, saves⟩ := s
  have hpath : ∃ folder, backing = .file path folder := by
    simp only [CursorStore.save] at hbacking
    split at hbacking
    · exact ⟨folder, hbacking⟩
    · cases backing with
      | memory c => cases hbacking
      | file path' folder' =>
        rw [Backing.save] at hbacking
        split at hbacking <;> cases hbacking <;> exact ⟨folder', rfl⟩
  obtain ⟨folder', rfl⟩ := hpath
  exact h path folder' rfl

theorem load_of_saved (hload : s.loadFault = none) (h : (s.save c).1 = true) :
    (s.save c).2.load = .ok c := by
  obtain ⟨backing, refuses, loadFault, saves⟩ := s
  obtain rfl : loadFault = none := hload
  simp only [save] at h ⊢
  split at h
  · cases h
  · rename_i hrefused
    rw [if_neg hrefused]
    cases backing with
    | memory c' => rfl
    | file path folder =>
      rw [Backing.save] at h ⊢
      split at h
      · rename_i folder' hsave
        simp only [load]
        exact CursorFile.load_of_save hsave
      · cases h

theorem load_of_not_saved (hsafe : s.FailsSafely) (h : (s.save c).1 = false) :
    (s.save c).2.load = s.load := by
  obtain ⟨backing, refuses, loadFault, saves⟩ := s
  simp only [save] at h ⊢
  split at h
  · rename_i hrefused
    rw [if_pos hrefused]
    rfl
  · rename_i hrefused
    rw [if_neg hrefused]
    cases backing with
    | memory c' => cases h
    | file path folder =>
      rw [Backing.save] at h ⊢
      split at h
      · cases h
      · rename_i e folder' hsave
        have hsame := hsafe path folder rfl c folder e folder' hsave
        cases loadFault with
        | some e => rfl
        | none =>
          simp only [load]
          exact hsame

lemma loadFault_of_load {cursors : Cursors} (h : s.load = .ok cursors) : s.loadFault = none := by
  rw [load] at h
  split at h
  · cases h
  · assumption
  · assumption

end Save

end CursorStore

end Parley
