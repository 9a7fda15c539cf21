import Parley.Proofs.Store.Keeping

/-!
# Cursor files beside each other

Two stores may keep their cursors in files of one folder. A save writes the draft and then moves it,
and between the two steps the other store may do anything. Main statement: the stores leave each
other alone when their files have different stems, and only then, since a draft is named by the stem
of its file (`CursorFile.undisturbed_by_stems`).
-/

namespace Parley

/-! ## Stems and drafts -/

namespace Path

lemma toList_stem (name : String) : (stem name).toList =
    if ((name.toList.reverse.dropWhile (· ≠ '.')).drop 1).reverse = [] then name.toList
    else ((name.toList.reverse.dropWhile (· ≠ '.')).drop 1).reverse := by
  simp only [stem, List.isEmpty_iff]
  split
  · rfl
  · exact String.toList_ofList

lemma stem_ne_empty {name : String} (h : name ≠ "") : stem name ≠ "" := by
  intro hempty
  have hlist := toList_stem name
  rw [hempty] at hlist
  split at hlist
  · exact h (String.toList_inj.mp hlist.symm)
  · rename_i hne
    exact hne hlist.symm

lemma stem_draft {name : String} (h : name ≠ "") :
    stem (stem name ++ "." ++ "tmp") = stem name := by
  have hne : (stem name).toList ≠ [] := fun hnil => stem_ne_empty h (String.toList_inj.mp hnil)
  have hback : (stem name ++ "." ++ "tmp").toList.reverse =
      'p' :: 'm' :: 't' :: '.' :: (stem name).toList.reverse := by
    simp [String.toList_append]
  apply String.toList_inj.mp
  rw [toList_stem, hback]
  simp [hne]

end Path

def Path.file (dir : List String) (name : String) : Path := ⟨dir ++ [name], false⟩

namespace CursorFile

/-- The name of the draft beside a file. -/
def beside (name : String) : String :=
  if name = "" then "" else Path.stem name ++ "." ++ "tmp"

lemma draft_file (dir : List String) (name : String) :
    draft (Path.file dir name) = Path.file dir (beside name) := by
  rw [draft, Path.withEnding, Path.file, List.getLast?_concat]
  by_cases h : name = ""
  · simp [h, beside, Path.file]
  · simp [h, beside, Path.file]

lemma beside_ne_empty {name : String} (h : name ≠ "") : beside name ≠ "" := by
  rw [beside, if_neg h]
  intro hempty
  have hlength := congrArg (fun s => s.toList.length) hempty
  simp [String.toList_append] at hlength

lemma stem_beside (name : String) : Path.stem (beside name) = Path.stem name := by
  by_cases h : name = ""
  · rw [beside, if_pos h, h]
  · rw [beside, if_neg h, Path.stem_draft h]

lemma beside_eq_iff {a b : String} (ha : a ≠ "") (hb : b ≠ "") :
    beside a = beside b ↔ Path.stem a = Path.stem b := by
  constructor
  · intro h
    rw [← stem_beside a, h, stem_beside]
  · intro h
    rw [beside, beside, if_neg ha, if_neg hb, h]

/-! ## Files that others leave alone -/

/-- What stands at other places than the given ones is the same. -/
def AlikeBut (places : List (List String)) (f g : Folder) : Prop :=
  ∀ names, names ∉ places → f.item? names = g.item? names

def places (p : Path) : List (List String) := [p.names, (draft p).names]

section Folder
variable {p : Path} {others : List (List String)} {f g : Folder}

/-- The way to a path leads through no other places when these lie as deep as the path. -/
lemma AlikeBut.item?_eq (h : AlikeBut others f g)
    (hdeep : ∀ names ∈ others, names.length = p.names.length) (hout : p.names ∉ others)
    {front : List String} (hfront : front <+: p.names) : f.item? front = g.item? front := by
  refine h front fun hin => hout ?_
  rwa [← hfront.eq_of_length (hdeep front hin)]

lemma AlikeBut.walk_eq (h : AlikeBut others f g)
    (hdeep : ∀ names ∈ others, names.length = p.names.length) (hout : p.names ∉ others) :
    f.walk [] p.names = g.walk [] p.names :=
  Folder.walk_congr fun _ hfront _ => h.item?_eq hdeep hout hfront

lemma AlikeBut.walk_dropLast_eq (h : AlikeBut others f g)
    (hdeep : ∀ names ∈ others, names.length = p.names.length) (hne : p.names ≠ []) :
    f.walk [] p.names.dropLast = g.walk [] p.names.dropLast := by
  refine Folder.walk_congr fun front hfront _ => h _ fun hin => ?_
  have hle := hfront.length_le
  have hlength := hdeep _ hin
  have hpos := List.length_pos_iff.mpr hne
  rw [List.nil_append] at hlength
  rw [List.length_dropLast] at hle
  omega

lemma AlikeBut.find_eq (h : AlikeBut others f g)
    (hdeep : ∀ names ∈ others, names.length = p.names.length) (hout : p.names ∉ others) :
    f.find p = g.find p := by
  simp only [Folder.find, h.walk_eq hdeep hout]

lemma AlikeBut.checkParent_eq (h : AlikeBut others f g)
    (hdeep : ∀ names ∈ others, names.length = p.names.length) (hne : p.names ≠ []) :
    f.checkParent p = g.checkParent p := by
  simp only [Folder.checkParent, h.walk_dropLast_eq hdeep hne]

lemma item?_erase_eq (f : Folder) (names : List String) : (f.erase names).item? names =
    if names.isEmpty then some .folder else none := by
  rw [Folder.item?]
  split
  · rfl
  · rw [Folder.erase, List.lookup_eq_none_iff]
    intro entry hentry
    simpa using (Ne.symm (by simpa using (List.mem_filter.mp hentry).2))

lemma AlikeBut.put (h : AlikeBut others f g) {names : List String} (hne : names ≠ [])
    (item : Folder.Item) : AlikeBut others (f.put names item) (g.put names item) := by
  intro names' hout
  by_cases heq : names' = names
  · rw [heq, Folder.item?_put_self _ hne, Folder.item?_put_self _ hne]
  · rw [Folder.item?_put_ne _ heq, Folder.item?_put_ne _ heq, h names' hout]

lemma alikeBut_put (f : Folder) (names : List String) (item : Folder.Item) :
    AlikeBut [names] f (f.put names item) := by
  intro names' hout
  exact (Folder.item?_put_ne _ (by simpa using hout) _).symm

lemma AlikeBut.erase (h : AlikeBut others f g) (names : List String) :
    AlikeBut others (f.erase names) (g.erase names) := by
  intro names' hout
  by_cases heq : names' = names
  · rw [heq, item?_erase_eq, item?_erase_eq]
  · rw [Folder.item?_erase_ne _ heq, Folder.item?_erase_ne _ heq, h names' hout]

lemma write_alike (hparent : f.checkParent p = g.checkParent p)
    (hitem : f.item? p.names = g.item? p.names) :
    ∃ result : Except IoFault Unit, ∀ content,
      f.write p content = result.map (fun _ => f.put p.names (.file content)) ∧
      g.write p content = result.map (fun _ => g.put p.names (.file content)) := by
  simp only [Folder.write, hparent, hitem]
  cases g.checkParent p with
  | error fault => exact ⟨.error fault, fun _ => ⟨rfl, rfl⟩⟩
  | ok u =>
    rcases g.item? p.names with _ | _ | _
    · cases p.slash with
      | true => exact ⟨.error .isADirectory, fun _ => ⟨rfl, rfl⟩⟩
      | false => exact ⟨.ok (), fun _ => ⟨rfl, rfl⟩⟩
    · cases p.slash with
      | true => exact ⟨.error .notADirectory, fun _ => ⟨rfl, rfl⟩⟩
      | false => exact ⟨.ok (), fun _ => ⟨rfl, rfl⟩⟩
    · exact ⟨.error .isADirectory, fun _ => ⟨rfl, rfl⟩⟩

lemma rename_alike {source target : Path} (hfind : f.find source = g.find source)
    (hparent : f.checkParent target = g.checkParent target)
    (hitem : f.item? target.names = g.item? target.names) :
    ∃ result : Except IoFault Bytes,
      f.rename source target =
        result.map (fun content => (f.erase source.names).put target.names (.file content)) ∧
      g.rename source target =
        result.map (fun content => (g.erase source.names).put target.names (.file content)) := by
  simp only [Folder.rename, hfind, hparent, hitem]
  cases g.find source with
  | error fault => exact ⟨.error fault, rfl, rfl⟩
  | ok item =>
    cases item with
    | folder => exact ⟨.error .isADirectory, rfl, rfl⟩
    | file content =>
      cases g.checkParent target with
      | error fault => exact ⟨.error fault, rfl, rfl⟩
      | ok u =>
        cases target.slash with
        | true => exact ⟨.error .notADirectory, rfl, rfl⟩
        | false =>
          by_cases hfolder : g.item? target.names = some .folder
          · exact ⟨.error .isADirectory, by simp [hfolder, Except.map],
              by simp [hfolder, Except.map]⟩
          · exact ⟨.ok content, by simp [hfolder, Except.map], by simp [hfolder, Except.map]⟩

end Folder

/-! ## What stores do with their files -/

/-- An act of a store: to load, or one of the two steps of a save. -/
inductive Act
  | load
  | stage (c : Cursors)
  | publish

/-- What a store tells the one who uses it. -/
inductive Answer
  | loaded (result : Except Error Cursors)
  | saved (result : Except Error Unit)

/-- A store under way. -/
structure Keeper where
  /-- The cursors of the save that is under way: its draft is written and not yet moved. -/
  underway : Option Cursors := none
  saved : Option Cursors := none
  answers : List Answer := []

namespace Keeper

def answer (k : Keeper) (a : Answer) : Keeper := { k with answers := k.answers ++ [a] }

/-- An act of a store on its file. A store saves once at a time: there is nothing to be moved when
no save is under way, and no save starts when one is. -/
def act (p : Path) (k : Keeper) (f : Folder) : Act → Keeper × Folder
  | .load => (k.answer (.loaded (load p f)), f)
  | .stage c =>
    match k.underway, stage p c f with
    | some _, _ => (k, f)
    | none, .error fault => (k.answer (.saved (.error (.io fault))), f)
    | none, .ok f => ({ k with underway := some c }, f)
  | .publish =>
    match k.underway, publish p f with
    | none, _ => (k, f)
    | some _, .error fault =>
      ({ k with underway := none }.answer (.saved (.error (.io fault))), f)
    | some c, .ok f => ({ k with underway := none, saved := some c }.answer (.saved (.ok ())), f)

def run (p : Path) (acts : List Act) (k : Keeper × Folder) : Keeper × Folder :=
  acts.foldl (fun k a => act p k.1 k.2 a) k

lemma run_save (p : Path) (c : Cursors) (k : Keeper) (f : Folder) (hidle : k.underway = none) :
    (run p [.stage c, .publish] (k, f)).2 = (save p c f).2 ∧
      (run p [.stage c, .publish] (k, f)).1.underway = none ∧
      (run p [.stage c, .publish] (k, f)).1.answers = k.answers ++ [.saved (save p c f).1] := by
  cases hstage : stage p c f with
  | error fault => simp [run, act, save, answer, hidle, hstage]
  | ok staged =>
    cases hpublish : publish p staged with
    | error fault => simp [run, act, save, answer, hidle, hstage, hpublish]
    | ok published => simp [run, act, save, answer, hidle, hstage, hpublish]

variable {p q : Path} {others : List (List String)} {k : Keeper} {f g : Folder}

lemma act_alike (h : AlikeBut others f g) (hout : ∀ names ∈ places p, names ∉ others)
    (hdeep : ∀ names ∈ others, names.length = p.names.length) (hne : p.names ≠ []) (a : Act) :
    (k.act p f a).1 = (k.act p g a).1 ∧ AlikeBut others (k.act p f a).2 (k.act p g a).2 := by
  have hp : p.names ∉ others := hout _ (by simp [places])
  have hd : (draft p).names ∉ others := hout _ (by simp [places])
  have hdeep' : ∀ names ∈ others, names.length = (draft p).names.length := by
    rw [length_draft]
    exact hdeep
  have hdne : (draft p).names ≠ [] := by
    rw [← List.length_pos_iff, length_draft]
    exact List.length_pos_iff.mpr hne
  cases a with
  | load =>
    refine ⟨?_, h⟩
    simp only [act, load, Folder.read, h.find_eq hdeep hp]
  | stage c =>
    obtain ⟨result, hresult⟩ := write_alike (h.checkParent_eq hdeep' hdne) (h _ hd)
    obtain ⟨hf, hg⟩ := hresult (Bytes.ofString c.render)
    simp only [act, stage, hf, hg]
    cases k.underway with
    | some c' => exact ⟨rfl, h⟩
    | none =>
      cases result with
      | error fault => exact ⟨rfl, h⟩
      | ok u => exact ⟨rfl, h.put hdne _⟩
  | publish =>
    obtain ⟨result, hf, hg⟩ := rename_alike (h.find_eq hdeep' hd) (h.checkParent_eq hdeep hne)
      (h _ hp)
    simp only [act, publish, hf, hg]
    cases k.underway with
    | none => exact ⟨rfl, h⟩
    | some c =>
      cases result with
      | error fault => exact ⟨rfl, h⟩
      | ok content => exact ⟨rfl, (h.erase _).put hne _⟩

lemma alikeBut_act (k : Keeper) (f : Folder) (a : Act) : AlikeBut (places p) f (k.act p f a).2 := by
  cases a with
  | load => exact fun names hout => rfl
  | stage c =>
    cases hstage : stage p c f with
    | error fault => cases hunderway : k.underway <;> simp [act, hstage, hunderway, AlikeBut]
    | ok staged =>
      cases hunderway : k.underway with
      | some c' => simp [act, hunderway, AlikeBut]
      | none =>
        intro names hout
        simp only [act, hstage, hunderway]
        rw [stage_ok hstage, Folder.item?_put_ne]
        rintro rfl
        simp [places] at hout
  | publish =>
    cases hpublish : publish p f with
    | error fault => cases hunderway : k.underway <;> simp [act, hpublish, hunderway, AlikeBut]
    | ok published =>
      cases hunderway : k.underway with
      | none => simp [act, hunderway, AlikeBut]
      | some c =>
        intro names hout
        simp only [places, List.mem_cons, List.not_mem_nil, or_false, not_or] at hout
        obtain ⟨content, -, -, -, rfl⟩ := publish_ok hpublish
        simp only [act, hpublish, hunderway]
        rw [Folder.item?_put_ne _ hout.1, Folder.item?_erase_ne _ hout.2]

/-! ### One store by itself -/

/-- What a store should load that found a folder as it was: what it has saved last, or else what was
there. -/
def expected (p : Path) (k : Keeper) (found : Folder) : Except Error Cursors :=
  (k.saved.map .ok).getD (CursorFile.load p found)

/-- A file that is its own draft is there at once; one with another draft is there when the draft is
moved. -/
def Loads (p : Path) (found : Folder) (k : Keeper) (f : Folder) : Prop :=
  k.underway = none ∨ (draft p).names ≠ p.names → CursorFile.load p f = k.expected p found

/-- A store that has the folder for itself: it loads what it should, and a draft is what was written
to a folder from which it did. -/
def Sound (p : Path) (found : Folder) (k : Keeper) (f : Folder) : Prop :=
  match k.underway with
  | none => CursorFile.load p f = k.expected p found
  | some c => ∃ f₁, stage p c f₁ = .ok f ∧ CursorFile.load p f₁ = k.expected p found

lemma Sound.loads {found : Folder} (h : k.Sound p found f) : k.Loads p found f := by
  rintro hload
  cases hunderway : k.underway with
  | none => simpa only [Sound, hunderway] using h
  | some c =>
    simp only [Sound, hunderway] at h
    obtain ⟨f₁, hstage, hexpected⟩ := h
    have hdraft : (draft p).names ≠ p.names := by simpa [hunderway] using hload
    rw [load_of_stage hdraft hstage, hexpected]

lemma checkParent_of_stage {c : Cursors} {f₁ : Folder} (h : stage p c f₁ = .ok f) :
    f₁.checkParent (draft p) = .ok () := by
  rw [stage, Folder.write] at h
  cases hparent : f₁.checkParent (draft p) with
  | error fault => simp [hparent] at h
  | ok u => rfl

lemma publish_self (hslash : p.slash = false) (hne : p.names ≠ []) (hdraft : draft p = p)
    {c : Cursors} {f₁ : Folder} (h : stage p c f₁ = .ok f) : ∃ f', publish p f = .ok f' := by
  have hparent := checkParent_of_stage h
  obtain rfl := stage_ok h
  rw [hdraft] at hparent
  rw [publish, hdraft]
  set content := Bytes.ofString c.render
  rw [(alikeBut_put f₁ p.names (.file content)).checkParent_eq (by simp) hne] at hparent
  obtain ⟨hnul, front, name, hnames, hfront, hname⟩ := Folder.checkParent_ok hparent hne
  have hitem := Folder.item?_put_self f₁ hne (.file content)
  have hfind : (f₁.put p.names (.file content)).find p = .ok (.file content) := by
    refine Folder.find_eq_file.mpr ⟨hnul, ?_, hslash⟩
    rw [hnames] at hfront hitem ⊢
    exact Folder.walk_concat hfront hname hitem
  exact ⟨_, by simp [Folder.rename, hfind, hparent, hslash, hitem]; rfl⟩

lemma draft_eq_self (hslash : p.slash = false) (hdraft : (draft p).names = p.names) :
    draft p = p := by
  have hslash' : (draft p).slash = false := by
    rw [draft, Path.withEnding]
    split
    · exact hslash
    · split
      · exact hslash
      · rfl
  calc draft p = ⟨(draft p).names, (draft p).slash⟩ := rfl
    _ = p := by rw [hdraft, hslash', ← hslash]

lemma Sound.act {found : Folder} (h : k.Sound p found f) (hslash : p.slash = false)
    (hne : p.names ≠ []) (a : Act) :
    (k.act p f a).1.Sound p found (k.act p f a).2 := by
  cases a with
  | load => exact h
  | stage c =>
    cases hunderway : k.underway with
    | some c' => simpa only [Keeper.act, hunderway] using h
    | none =>
      simp only [Sound, hunderway] at h
      cases hstage : stage p c f with
      | error fault => simpa only [Keeper.act, hunderway, hstage, Sound, answer, expected] using h
      | ok staged =>
        simp only [Keeper.act, hunderway, hstage, Sound]
        exact ⟨f, hstage, h⟩
  | publish =>
    cases hunderway : k.underway with
    | none => simpa only [Keeper.act, hunderway] using h
    | some c =>
      simp only [Sound, hunderway] at h
      obtain ⟨f₁, hstage, hexpected⟩ := h
      cases hpublish : publish p f with
      | error fault =>
        simp only [Keeper.act, hunderway, hpublish, Sound, answer]
        by_cases hdraft : (draft p).names = p.names
        · obtain ⟨f', hok⟩ := publish_self hslash hne (draft_eq_self hslash hdraft) hstage
          rw [hok] at hpublish
          cases hpublish
        · rw [load_of_stage hdraft hstage, hexpected]
          rfl
      | ok published =>
        simp only [Keeper.act, hunderway, hpublish, Sound, answer, expected]
        refine load_of_save (f := f₁) ?_
        simp only [save, hstage, hpublish]

lemma Sound.run {found : Folder} {k : Keeper × Folder} (h : k.1.Sound p found k.2)
    (hslash : p.slash = false) (hne : p.names ≠ []) (acts : List Act) :
    (run p acts k).1.Sound p found (run p acts k).2 := by
  induction acts generalizing k with
  | nil => exact h
  | cons a acts ih => exact ih (h.act hslash hne a)

end Keeper

/-! ## Two stores in one folder -/

/-- Two stores under way, and the folder of their files. -/
structure Neighbours where
  first : Keeper := {}
  second : Keeper := {}
  folder : Folder

namespace Neighbours

def act (p q : Path) (n : Neighbours) : Act ⊕ Act → Neighbours
  | .inl a => { n with
      first := (n.first.act p n.folder a).1, folder := (n.first.act p n.folder a).2 }
  | .inr a => { n with
      second := (n.second.act q n.folder a).1, folder := (n.second.act q n.folder a).2 }

def run (p q : Path) (acts : List (Act ⊕ Act)) (n : Neighbours) : Neighbours :=
  acts.foldl (act p q) n

def swap (n : Neighbours) : Neighbours := ⟨n.second, n.first, n.folder⟩

lemma run_swap (p q : Path) (acts : List (Act ⊕ Act)) (n : Neighbours) :
    run q p (acts.map Sum.swap) n.swap = (run p q acts n).swap := by
  induction acts generalizing n with
  | nil => rfl
  | cons a acts ih =>
    cases a with
    | inl a => exact ih (n.act p q (.inl a))
    | inr a => exact ih (n.act p q (.inr a))

def own (acts : List (Act ⊕ Act)) : List Act := acts.filterMap Sum.getLeft?

def others (acts : List (Act ⊕ Act)) : List Act := acts.filterMap Sum.getRight?

lemma own_swap (acts : List (Act ⊕ Act)) : own (acts.map Sum.swap) = others acts := by
  rw [own, others, List.filterMap_map]
  exact List.filterMap_congr fun a _ => by cases a <;> rfl

variable {p q : Path}

lemma first_run (hplaces : ∀ names ∈ places p, names ∉ places q)
    (hdeep : ∀ names ∈ places q, names.length = p.names.length) (hne : p.names ≠ [])
    (acts : List (Act ⊕ Act)) {n : Neighbours} {f : Folder}
    (h : AlikeBut (places q) n.folder f) :
    (run p q acts n).first = (Keeper.run p (own acts) (n.first, f)).1 ∧
      AlikeBut (places q) (run p q acts n).folder (Keeper.run p (own acts) (n.first, f)).2 := by
  induction acts generalizing n f with
  | nil => exact ⟨rfl, h⟩
  | cons a acts ih =>
    cases a with
    | inl a =>
      obtain ⟨hkeeper, hfolder⟩ := Keeper.act_alike (k := n.first) h hplaces hdeep hne a
      have hrest := ih (n := n.act p q (.inl a)) hfolder
      rw [show (n.act p q (.inl a)).first = (n.first.act p f a).1 from hkeeper] at hrest
      exact hrest
    | inr a =>
      refine ih (n := n.act p q (.inr a)) fun names hout => ?_
      rw [← h names hout]
      exact (Keeper.alikeBut_act n.second n.folder a names hout).symm

end Neighbours

/-- In a run of two stores that find a folder, each of them gets the answers that it would get by
itself, and loads what it should. -/
structure Undisturbed (p q : Path) (found : Folder) (acts : List (Act ⊕ Act)) : Prop where
  first : (Neighbours.run p q acts { folder := found }).first =
    (Keeper.run p (Neighbours.own acts) ({}, found)).1
  second : (Neighbours.run p q acts { folder := found }).second =
    (Keeper.run q (Neighbours.others acts) ({}, found)).1
  loadsFirst : (Neighbours.run p q acts { folder := found }).first.Loads p found
    (Neighbours.run p q acts { folder := found }).folder
  loadsSecond : (Neighbours.run p q acts { folder := found }).second.Loads q found
    (Neighbours.run p q acts { folder := found }).folder

lemma save_ok {p : Path} {c : Cursors} {f : Folder} (h : (save p c f).1 = .ok ()) :
    ∃ staged, stage p c f = .ok staged ∧ ∃ published, publish p staged = .ok published ∧
      save p c f = (.ok (), published) := by
  rw [save] at h
  cases hstage : stage p c f with
  | error fault => simp [hstage] at h
  | ok staged =>
    cases hpublish : publish p staged with
    | error fault => simp [hstage, hpublish] at h
    | ok published => exact ⟨staged, rfl, published, hpublish, by simp [save, hstage, hpublish]⟩

section Stems
variable {dir : List String} {a b : String}

lemma places_file (dir : List String) (name : String) :
    places (Path.file dir name) = [dir ++ [name], dir ++ [beside name]] := by
  rw [places, draft_file]
  rfl

lemma not_mem_places_of_stem_ne (h : Path.stem a ≠ Path.stem b) :
    ∀ names ∈ places (Path.file dir a), names ∉ places (Path.file dir b) := by
  have hne {x y : String} (hx : Path.stem x = Path.stem a) (hy : Path.stem y = Path.stem b) :
      x ≠ y := by
    rintro rfl
    exact h (hx.symm.trans hy)
  have ha := stem_beside a
  have hb := stem_beside b
  simp [places_file, hne rfl rfl, hne rfl hb, hne ha rfl, hne ha hb]

lemma length_of_mem_places : ∀ names ∈ places (Path.file dir b),
    names.length = (Path.file dir a).names.length := by
  rw [places_file]
  simp [Path.file]

lemma first_undisturbed (dir : List String) (h : Path.stem a ≠ Path.stem b) (found : Folder)
    (acts : List (Act ⊕ Act)) :
    (Neighbours.run (.file dir a) (.file dir b) acts { folder := found }).first =
        (Keeper.run (.file dir a) (Neighbours.own acts) ({}, found)).1 ∧
      (Neighbours.run (.file dir a) (.file dir b) acts { folder := found }).first.Loads
        (.file dir a) found
        (Neighbours.run (.file dir a) (.file dir b) acts { folder := found }).folder := by
  have hplaces : ∀ names ∈ places (Path.file dir a), names ∉ places (Path.file dir b) :=
    not_mem_places_of_stem_ne h
  have hdeep : ∀ names ∈ places (Path.file dir b),
      names.length = (Path.file dir a).names.length := length_of_mem_places
  have hne : (Path.file dir a).names ≠ [] := by simp [Path.file]
  obtain ⟨hfirst, hfolder⟩ := Neighbours.first_run (n := { folder := found }) hplaces hdeep hne acts
    (fun names _ => rfl)
  refine ⟨hfirst, fun hload => ?_⟩
  have hsound : (Keeper.run (.file dir a) (Neighbours.own acts) ({}, found)).1.Sound
      (.file dir a) found (Keeper.run (.file dir a) (Neighbours.own acts) ({}, found)).2 :=
    Keeper.Sound.run (k := ({}, found)) rfl rfl hne _
  have hsame : load (.file dir a)
        (Neighbours.run (.file dir a) (.file dir b) acts { folder := found }).folder =
      load (.file dir a) (Keeper.run (.file dir a) (Neighbours.own acts) ({}, found)).2 := by
    simp only [load, Folder.read, hfolder.find_eq hdeep (hplaces _ (by simp [places]))]
  rw [hsame, hfirst]
  rw [hfirst] at hload
  exact hsound.loads hload

/-- Some folder lets every save to a path succeed. -/
def Savable (p : Path) : Prop := ∃ f, ∀ c, (save p c f).1 = .ok ()

lemma ne_empty_of_savable (h : Savable (Path.file dir a)) : a ≠ "" := by
  rintro rfl
  obtain ⟨f, hsaves⟩ := h
  obtain ⟨staged, hstage, -⟩ := save_ok (hsaves .zero)
  have hparent := Keeper.checkParent_of_stage hstage
  rw [draft_file, beside, if_pos rfl, Folder.checkParent] at hparent
  cases hnul : (Path.file dir "").holdsNul with
  | true => simp [hnul] at hparent
  | false =>
    rcases hwalk : f.walk [] (Path.file dir "").names.dropLast with _ | _ | _ <;>
      simp [hnul, hwalk] at hparent
    simp [Path.file] at hparent

lemma put_put (f : Folder) (names : List String) (item item' : Folder.Item) :
    (f.put names item).put names item' = f.put names item' := by
  simp [Folder.put, List.filter_filter]

/-- A draft that has been written may be written over, as if it had not been there. -/
lemma stage_stage {p q : Path} (hdraft : draft q = draft p) (hne : (draft p).names ≠ [])
    (hslash : (draft p).slash = false) {c c' : Cursors} {f staged : Folder}
    (h : stage p c f = .ok staged) : stage q c' staged = stage p c' f := by
  have hparent := Keeper.checkParent_of_stage h
  obtain ⟨result, hwrite⟩ := write_alike (f := f) (p := draft p) rfl rfl
  have hfirst := (hwrite (Bytes.ofString c.render)).1
  have hstage : stage p c' f = _ := (hwrite (Bytes.ofString c'.render)).1
  rw [stage] at h
  rw [h] at hfirst
  obtain rfl := stage_ok h
  rw [(alikeBut_put f (draft p).names (.file (Bytes.ofString c.render))).checkParent_eq (by simp)
    hne] at hparent
  cases result with
  | error fault => cases hfirst
  | ok u =>
    rw [hstage, stage, hdraft, Folder.write, hparent, Folder.item?_put_self _ hne, hslash]
    exact congrArg Except.ok (put_put ..)

/-- Of two stores whose files have the same stem, the first one may come to load what the second one
has saved. -/
lemma disturbed_of_stem_eq (hstem : Path.stem a = Path.stem b) (h : Savable (Path.file dir a)) :
    ∃ found acts, ¬ Undisturbed (Path.file dir a) (Path.file dir b) found acts := by
  have ha := ne_empty_of_savable h
  have hb : b ≠ "" := by
    rintro rfl
    exact Path.stem_ne_empty ha hstem
  have hdraft : draft (.file dir b) = draft (.file dir a) := by
    rw [draft_file, draft_file, (beside_eq_iff hb ha).mpr hstem.symm]
  obtain ⟨f, hsaves⟩ := h
  -- the second store writes over the draft of the first one before it is moved
  let one : Cursors := { Cursors.zero with direct := 1 }
  obtain ⟨staged, hstage, -⟩ := save_ok (hsaves .zero)
  obtain ⟨staged', hstage', published, hpublish, hsave⟩ := save_ok (hsaves one)
  have hover : stage (.file dir b) one staged = .ok staged' := by
    rw [stage_stage hdraft (by rw [draft_file]; simp [Path.file]) (by rw [draft_file]; rfl) hstage,
      hstage']
  refine ⟨f, [.inl (.stage .zero), .inr (.stage one), .inl .publish], fun hundisturbed => ?_⟩
  have hloads := hundisturbed.loadsFirst
  simp only [Neighbours.run, List.foldl_cons, List.foldl_nil, Neighbours.act, Keeper.act, hstage,
    hover, hpublish, Keeper.Loads, Keeper.answer, Keeper.expected, true_or, true_implies] at hloads
  rw [load_of_save hsave] at hloads
  have hdirect := congrArg Cursors.direct (Except.ok.inj hloads)
  revert hdirect
  decide

end Stems

/-- Stores whose files stand in one folder leave each other alone, in all orders of their acts and
whatever they find, if their files differ in more than what follows the stem. If they do not, some
order of their acts makes a store load what it has not saved. -/
theorem undisturbed_by_stems (dir : List String) (a b : String) :
    (Path.stem a ≠ Path.stem b → ∀ found acts,
      Undisturbed (Path.file dir a) (Path.file dir b) found acts) ∧
    (Path.stem a = Path.stem b → Savable (Path.file dir a) → ∃ found acts,
      ¬ Undisturbed (Path.file dir a) (Path.file dir b) found acts) := by
  refine ⟨fun h found acts => ?_, disturbed_of_stem_eq⟩
  obtain ⟨hfirst, hloads⟩ := first_undisturbed dir h found acts
  obtain ⟨hsecond, hloads'⟩ := first_undisturbed dir h.symm found (acts.map Sum.swap)
  rw [show ({ folder := found } : Neighbours) = Neighbours.swap { folder := found } from rfl,
    Neighbours.run_swap] at hsecond hloads'
  rw [Neighbours.own_swap] at hsecond
  exact ⟨hfirst, hsecond, hloads, hloads'⟩

/-- Cursors that a store has saved before. -/
def five : Cursors := { Cursors.zero with direct := 5 }

/-- A folder with a file that is the draft of the one beside it. -/
def shelf : Folder := ⟨[(["a.tmp"], .file (Bytes.ofString five.render))]⟩

/-- A store saves to a file whose draft is the file of another store. It is then gone, and the other
store, which has saved nothing meanwhile, loads the cursors of a client that starts anew. -/
theorem disturbed_at_draft :
    load (.file [] "a.tmp") shelf = .ok five ∧
      load (.file [] "a.tmp") (Neighbours.run (.file [] "a.json") (.file [] "a.tmp")
        [.inl (.stage .zero), .inl .publish] { folder := shelf }).folder = .ok .zero ∧
      ¬ Undisturbed (.file [] "a.json") (.file [] "a.tmp") shelf
        [.inl (.stage .zero), .inl .publish] := by
  have hfound : load (.file [] "a.tmp") shelf = .ok five := load_of_find (by decide +kernel)
  have hlost : (Neighbours.run (.file [] "a.json") (.file [] "a.tmp")
      [.inl (.stage .zero), .inl .publish] { folder := shelf }).folder.find (.file [] "a.tmp") =
      .error .notFound := by decide +kernel
  have hzero : load (.file [] "a.tmp") (Neighbours.run (.file [] "a.json") (.file [] "a.tmp")
      [.inl (.stage .zero), .inl .publish] { folder := shelf }).folder = .ok .zero := by
    simp only [load, Folder.read, hlost]
    rfl
  refine ⟨hfound, hzero, fun hundisturbed => ?_⟩
  have hloads := hundisturbed.loadsSecond (.inl rfl)
  rw [hzero] at hloads
  change _ = load (.file [] "a.tmp") shelf at hloads
  rw [hfound] at hloads
  have hdirect := congrArg Cursors.direct (Except.ok.inj hloads)
  revert hdirect
  decide

/-- The stores of `a.json` and of `b.json` leave each other alone, those of `a.json` and of `a.txt`
do not. -/
theorem undisturbed_by_stems_json :
    (∀ found acts, Undisturbed (.file [] "a.json") (.file [] "b.json") found acts) ∧
      ∃ found acts, ¬ Undisturbed (.file [] "a.json") (.file [] "a.txt") found acts := by
  refine ⟨(undisturbed_by_stems [] "a.json" "b.json").1 (by decide +kernel),
    (undisturbed_by_stems [] "a.json" "a.txt").2 (by decide +kernel) ⟨⟨[]⟩, fun c => ?_⟩⟩
  generalize hcontent : Bytes.ofString c.render = content
  simp only [save, stage, hcontent]
  rfl

end CursorFile

end Parley
