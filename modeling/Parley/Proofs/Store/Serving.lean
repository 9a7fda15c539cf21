import Mathlib.Data.String.Basic
import Parley.Proofs.Store.Neighbours

/-!
# A file serves as memory does

A store is asked to load and to save, in any order. Whatever it finds, a store with a file loads
what its last successful save has stored, or else what was there. If the file system takes the name
of the file and that of its draft, and no folder stands under either, no save fails: the store gives
the answers of one that keeps its cursors in memory. Main statement: `CursorFile.serves_as_memory`.
-/

namespace Parley

namespace CursorStore

/-- What a store is asked for. -/
inductive Request
  | load
  | save (c : Cursors)

/-- What a store answers. -/
inductive Reply
  | loaded (result : Except Error Cursors)
  | saved (done : Bool)

def serve (s : CursorStore) : Request → Reply × CursorStore
  | .load => (.loaded s.load, s)
  | .save c => (.saved (s.save c).1, (s.save c).2)

def serveAll (s : CursorStore) : List Request → List Reply
  | [] => []
  | r :: rs => (s.serve r).1 :: (s.serve r).2.serveAll rs

/-- Answers by which all loads give what is held: at first the given result, and after each save
that is done what it has stored. A save that is not done changes nothing. -/
inductive Recalls : Except Error Cursors → List Request → List Reply → Prop
  | nil (held : Except Error Cursors) : Recalls held [] []
  | loaded (held : Except Error Cursors) (rs : List Request) (replies : List Reply)
    (h : Recalls held rs replies) : Recalls held (.load :: rs) (.loaded held :: replies)
  | saved (held : Except Error Cursors) (c : Cursors) (rs : List Request) (replies : List Reply)
    (h : Recalls (.ok c) rs replies) : Recalls held (.save c :: rs) (.saved true :: replies)
  | refused (held : Except Error Cursors) (c : Cursors) (rs : List Request) (replies : List Reply)
    (h : Recalls held rs replies) : Recalls held (.save c :: rs) (.saved false :: replies)

/-- A store that fails safely recalls what it has saved. -/
theorem recalls_serveAll {s : CursorStore} (hsafe : s.FailsSafely) (hload : s.loadFault = none)
    (rs : List Request) : Recalls s.load rs (s.serveAll rs) := by
  induction rs generalizing s with
  | nil => exact .nil _
  | cons r rs ih =>
    cases r with
    | load => exact .loaded _ _ _ (ih hsafe hload)
    | save c =>
      have hrest := ih (hsafe.save c) (s := (s.save c).2) hload
      cases hdone : (s.save c).1 with
      | true =>
        rw [load_of_saved hload hdone] at hrest
        rw [serveAll, serve, hdone]
        exact .saved _ c _ _ hrest
      | false =>
        rw [load_of_not_saved hsafe hdone] at hrest
        rw [serveAll, serve, hdone]
        exact .refused _ c _ _ hrest

end CursorStore

namespace CursorFile

open CursorStore

/-- A store that keeps its cursors in a file. -/
def store (p : Path) (found : Folder) : CursorStore := { backing := .file p found }

/-! ## Saves that fail -/

/-- A save that fails leaves what is loaded as it was, also where a file is its own draft. -/
lemma load_of_refused {p : Path} {c : Cursors} {f f' : Folder} {e : Error}
    (hslash : p.slash = false) (hne : p.names ≠ []) (h : save p c f = (.error e, f')) :
    load p f' = load p f := by
  by_cases hdraft : (draft p).names = p.names
  · -- such a file is in its place as soon as it is written, so that the writing has failed
    rw [save] at h
    cases hstage : stage p c f with
    | error fault =>
      simp only [hstage, Prod.mk.injEq] at h
      rw [h.2]
    | ok staged =>
      obtain ⟨published, hpublish⟩ :=
        Keeper.publish_self hslash hne (Keeper.draft_eq_self hslash hdraft) hstage
      simp [hstage, hpublish] at h
  · exact load_of_failed hdraft h

lemma failsSafely_store {p : Path} (hslash : p.slash = false) (hne : p.names ≠ [])
    (found : Folder) : (store p found).FailsSafely := by
  intro path folder hbacking c f e f' hsave
  cases hbacking
  exact load_of_refused hslash hne hsave

/-! ## Saves that succeed -/

/-- A step of a way: a name that holds no slash and leads neither here nor up. -/
structure IsComponent (name : String) : Prop where
  ne_empty : name ≠ ""
  not_here : name ≠ "."
  not_up : name ≠ ".."
  no_slash : '/' ∉ name.toList

/-- The file system takes the name of a file and that of its draft. -/
structure Takes (name : String) : Prop where
  no_nul : '\x00' ∉ name.toList
  short : name.utf8ByteSize ≤ Folder.maxName
  short_draft : (beside name).utf8ByteSize ≤ Folder.maxName

variable {name : String} {f : Folder}

@[simp] lemma names_file (dir : List String) (name : String) :
    (Path.file dir name).names = dir ++ [name] := rfl

@[simp] lemma slash_file (dir : List String) (name : String) :
    (Path.file dir name).slash = false := rfl

lemma ofString_of_isComponent (h : IsComponent name) : Path.ofString name = Path.file [] name := by
  have hne : name.toList ≠ [] := fun hnil => h.ne_empty (String.toList_inj.mp hnil)
  have hhere : name.toList ≠ ['.'] := fun hdot => h.not_here (String.toList_inj.mp hdot)
  have hslash : name.toList.getLast? ≠ some '/' := fun hlast =>
    h.no_slash (List.mem_of_getLast? hlast)
  simp [Path.ofString, Path.file, List.splitOn_eq_singleton h.no_slash, h.ne_empty, hne, hhere,
    hslash]

lemma no_nul_beside (h : '\x00' ∉ name.toList) : '\x00' ∉ (beside name).toList := by
  have hstem : ∀ c ∈ (Path.stem name).toList, c ∈ name.toList := by
    intro c hc
    rw [Path.toList_stem] at hc
    split at hc
    · exact hc
    · exact List.mem_reverse.mp
        ((List.dropWhile_suffix _).subset (List.mem_of_mem_drop (List.mem_reverse.mp hc)))
  intro hnul
  rw [beside] at hnul
  split at hnul
  · simp at hnul
  · simp only [String.toList_append, List.mem_append] at hnul
    rcases hnul with (hnul | hnul) | hnul
    · exact h (hstem _ hnul)
    · revert hnul
      decide
    · revert hnul
      decide

lemma checkParent_file (hne : name ≠ "") (hnul : '\x00' ∉ name.toList)
    (hshort : name.utf8ByteSize ≤ Folder.maxName) :
    f.checkParent (Path.file [] name) = .ok () := by
  have hholds : (Path.file [] name).holdsNul = false := by simpa [Path.holdsNul] using hnul
  rw [Folder.checkParent, hholds]
  simp [Folder.walk, hne, Nat.not_lt.mpr hshort]

lemma find_file {content : Bytes} (hnul : '\x00' ∉ name.toList)
    (hshort : name.utf8ByteSize ≤ Folder.maxName) (hitem : f.item? [name] = some (.file content)) :
    f.find (Path.file [] name) = .ok (.file content) := by
  refine Folder.find_eq_file.mpr ⟨by simpa [Path.holdsNul] using hnul, ?_, rfl⟩
  have hfolder : f.walk [] [] = .ok .folder := rfl
  exact Folder.walk_concat hfolder (Nat.not_lt.mpr hshort) hitem

/-- No folder stands in the place of a file or of its draft. -/
structure HasRoom (f : Folder) (name : String) : Prop where
  file : f.item? [name] ≠ some .folder
  draft : f.item? [beside name] ≠ some .folder

lemma write_file (hne : name ≠ "") (hnul : '\x00' ∉ name.toList)
    (hshort : name.utf8ByteSize ≤ Folder.maxName) (content : Bytes) :
    f.write (Path.file [] name) content =
      if f.item? [name] = some .folder then .error .isADirectory
      else .ok (f.put [name] (.file content)) := by
  rw [Folder.write, checkParent_file hne hnul hshort]
  cases hitem : f.item? [name] with
  | none => simp [hitem]
  | some item => cases item <;> simp [hitem]

lemma rename_file {source : Path} {content : Bytes} (hfind : f.find source = .ok (.file content))
    (hne : name ≠ "") (hnul : '\x00' ∉ name.toList)
    (hshort : name.utf8ByteSize ≤ Folder.maxName) :
    f.rename source (Path.file [] name) =
      if f.item? [name] = some .folder then .error .isADirectory
      else .ok ((f.erase source.names).put [name] (.file content)) := by
  have hparent : f.checkParent (Path.file [] name) = .ok () := checkParent_file hne hnul hshort
  rw [Folder.rename, hfind]
  by_cases hitem : f.item? [name] = some .folder
  · simp [hparent, hitem]
  · simp [hparent, hitem]

lemma item?_staged (content : Bytes) :
    (f.put [beside name] (.file content)).item? [name] = some .folder ↔
      f.item? [name] = some .folder ∧ name ≠ beside name := by
  by_cases hself : name = beside name
  · have hitem := f.item?_put_self (List.cons_ne_nil (beside name) []) (.file content)
    rw [← hself] at hitem ⊢
    simp [hitem]
  · rw [Folder.item?_put_ne f (by simpa using hself)]
    simp [hself]

lemma save_of_hasRoom (hne : name ≠ "") (h : Takes name) (hroom : HasRoom f name) (c : Cursors) :
    ∃ f', save (Path.file [] name) c f = (.ok (), f') ∧ HasRoom f' name := by
  set content := Bytes.ofString c.render with hcontent
  set staged := f.put [beside name] (.file content) with hstaged
  have hstage : stage (Path.file [] name) c f = .ok staged := by
    rw [stage, draft_file, write_file (beside_ne_empty hne) (no_nul_beside h.no_nul) h.short_draft,
      if_neg hroom.draft]
  have hdraft : staged.item? [beside name] = some (.file content) :=
    Folder.item?_put_self f (by simp) _
  have hfile : staged.item? [name] ≠ some .folder := fun hfolder =>
    hroom.file ((item?_staged content).mp hfolder).1
  have hpublish : publish (Path.file [] name) staged =
      .ok ((staged.erase [beside name]).put [name] (.file content)) := by
    have hfind := find_file (no_nul_beside h.no_nul) h.short_draft hdraft
    rw [publish, draft_file, rename_file hfind hne h.no_nul h.short, if_neg hfile]
    rfl
  refine ⟨(staged.erase [beside name]).put [name] (.file content),
    by simp only [save, hstage, hpublish], ?_, ?_⟩
  · simp [Folder.item?_put_self]
  · by_cases hself : beside name = name
    · simp [hself, Folder.item?_put_self]
    · rw [Folder.item?_put_ne _ (by simpa using hself), item?_erase_eq]
      simp

lemma save_of_not_hasRoom (hne : name ≠ "") (h : Takes name) (hroom : ¬ HasRoom f name)
    (c : Cursors) : ∃ f', save (Path.file [] name) c f = (.error (.io .isADirectory), f') := by
  have hstage := write_file (f := f) (beside_ne_empty hne) (no_nul_beside h.no_nul) h.short_draft
    (Bytes.ofString c.render)
  rw [← draft_file] at hstage
  by_cases hdraft : f.item? [beside name] = some .folder
  · rw [if_pos hdraft] at hstage
    exact ⟨f, by simp only [save, stage, hstage]⟩
  · rw [if_neg hdraft] at hstage
    have hfile : f.item? [name] = some .folder := by
      by_contra hfile
      exact hroom ⟨hfile, hdraft⟩
    have hself : name ≠ beside name := by
      intro hself
      rw [← hself] at hdraft
      exact hdraft hfile
    have hfind := find_file (no_nul_beside h.no_nul) h.short_draft
      (f.item?_put_self (List.cons_ne_nil (beside name) []) (.file (Bytes.ofString c.render)))
    have hpublish := rename_file hfind hne h.no_nul h.short
    rw [if_pos ((item?_staged _).mpr ⟨hfile, hself⟩)] at hpublish
    rw [← draft_file] at hpublish
    refine ⟨f.put [beside name] (.file (Bytes.ofString c.render)), ?_⟩
    simp only [save, stage, hstage, publish, hpublish]

/-! ## Files and memory -/

lemma load_of_absent (hname : IsComponent name) (hnul : '\x00' ∉ name.toList)
    (hshort : name.utf8ByteSize ≤ Folder.maxName) (habsent : f.item? [name] = none) :
    load (Path.ofString name) f = .ok .zero := by
  have hholds : (Path.file [] name).holdsNul = false := by simpa [Path.holdsNul] using hnul
  have hwalk : f.walk [] (Path.file [] name).names = .error .notFound := by
    rw [names_file, List.nil_append, Folder.walk_cons, if_neg (Nat.not_lt.mpr hshort),
      List.nil_append, habsent]
  rw [ofString_of_isComponent hname, load, Folder.read, Folder.find, hholds, hwalk]
  rfl

lemma serveAll_eq (hne : name ≠ "") (h : Takes name) (rs : List Request) {c : Cursors}
    (hroom : HasRoom f name) (hload : load (Path.file [] name) f = .ok c)
    (saves saves' : List Save) :
    CursorStore.serveAll { backing := .file (Path.file [] name) f, saves } rs =
      CursorStore.serveAll { backing := .memory c, saves := saves' } rs := by
  induction rs generalizing f c saves saves' with
  | nil => rfl
  | cons r rs ih =>
    cases r with
    | load =>
      have hrest := ih hroom hload saves saves'
      simp only [serveAll, serve, CursorStore.load, hload, hrest]
    | save c' =>
      obtain ⟨f', hsave, hroom'⟩ := save_of_hasRoom hne h hroom c'
      have hrest := ih hroom' (load_of_save hsave) (saves ++ [⟨c', true⟩]) (saves' ++ [⟨c', true⟩])
      have hfile : CursorStore.save { backing := .file (Path.file [] name) f, saves } c' =
          (true, { backing := .file (Path.file [] name) f', saves := saves ++ [⟨c', true⟩] }) := by
        simp [CursorStore.save, Backing.save, hsave]
      have hmemory : CursorStore.save { backing := .memory c, saves := saves' } c' =
          (true, { backing := .memory c', saves := saves' ++ [⟨c', true⟩] }) := rfl
      rw [serveAll, serveAll, serve, serve, hfile, hmemory, hrest]

/-- Where no file is, a store forgets what it is asked to save if the name of the draft is too
long. -/
lemma serveAll_of_long {c : Cursors} (hname : IsComponent name) (hnul : '\x00' ∉ name.toList)
    (hshort : name.utf8ByteSize ≤ Folder.maxName)
    (hlong : Folder.maxName < (beside name).utf8ByteSize) (habsent : f.item? [name] = none) :
    (store (Path.ofString name) f).serveAll [.save c, .load] =
      [.saved false, .loaded (.ok .zero)] := by
  have hload := load_of_absent hname hnul hshort habsent
  rw [ofString_of_isComponent hname] at hload ⊢
  have hparent : f.checkParent (Path.file [] (beside name)) = .error .nameTooLong := by
    have hholds : (Path.file [] (beside name)).holdsNul = false := by
      simpa [Path.holdsNul] using no_nul_beside hnul
    rw [Folder.checkParent, hholds]
    simp [Folder.walk, beside_ne_empty hname.ne_empty, hlong]
  have hstage : stage (Path.file [] name) c f = .error .nameTooLong := by
    rw [stage, draft_file, Folder.write, hparent, error_bind]
  have hsave : CursorStore.save (store (Path.file [] name) f) c =
      (false, { store (Path.file [] name) f with saves := [⟨c, false⟩] }) := by
    simp [CursorStore.save, Backing.save, store, save, hstage]
  simp only [serveAll, serve, hsave, List.cons.injEq, and_true, true_and]
  exact congrArg Reply.loaded hload

/-- A name as long as a name may be, so that its draft can have none. -/
def longName : String := String.ofList (List.replicate Folder.maxName 'a')

lemma toList_longName : longName.toList = List.replicate Folder.maxName 'a' := String.toList_ofList

lemma not_mem_longName {c : Char} (hc : c ≠ 'a') : c ∉ longName.toList := by
  rw [toList_longName]
  exact fun hmem => hc (List.eq_of_mem_replicate hmem)

lemma utf8ByteSize_longName : longName.utf8ByteSize = Folder.maxName := by
  have hsize : ∀ n, String.utf8Len (List.replicate n 'a') = n := by
    intro n
    induction n with
    | zero => rfl
    | succ n ih =>
      rw [List.replicate_succ, String.utf8Len, ih]
      rfl
  rw [longName, String.utf8ByteSize_ofList, hsize]

lemma ne_longName {s : String} (h : s.utf8ByteSize ≠ Folder.maxName) : longName ≠ s := by
  rintro rfl
  exact h utf8ByteSize_longName

lemma isComponent_longName : IsComponent longName where
  ne_empty := ne_longName (by decide)
  not_here := ne_longName (by decide)
  not_up := ne_longName (by decide)
  no_slash := not_mem_longName (by decide)

/-- The name has no dot, so that it is its own stem. -/
lemma beside_longName : beside longName = longName ++ "." ++ "tmp" := by
  have hstem : Path.stem longName = longName := by
    have hdrop : longName.toList.reverse.dropWhile (· ≠ '.') = [] := by
      rw [toList_longName, List.reverse_replicate, List.dropWhile_replicate]
      rfl
    apply String.toList_inj.mp
    rw [Path.toList_stem, hdrop]
    simp
  rw [beside, if_neg isComponent_longName.ne_empty, hstem]

end CursorFile

end Parley
