import Parley.Proofs.Client.Operating
import Parley.Proofs.Client.Stored
import Parley.Proofs.Sync.Advancing
import Parley.Proofs.Sync.Windows

/-!
# Tracked groups and held cursors of a client

The engine of a client has been set up from the cursors loaded, and what a run has done with it
since is a list of operations. So a run settles which groups are tracked: those loaded, those
configured, and those named by a frame of the server or by the application (`Client.tracked_run`).
Connections that come and go move no cursor (`Client.cursors_of_arrival`).
-/

namespace Parley

/-- The requests of a connection that is ready: that for the direct inbox, and behind it those for
the groups, ascending. -/
def Cursors.requests (c : Cursors) : List Message :=
  .sync .request ⟨.direct, c.direct⟩ ::
    c.groups.entries.map fun entry => .sync .request ⟨.group entry.1, entry.2⟩

/-- A frame by which the server opens or closes the window of a group, or says that it has something
for it. -/
def Frame.Names (f : Frame) (g : Int64) : Prop :=
  ∃ verb key, f.message = .sync verb ⟨.group g, key⟩ ∧
    (verb = .opened ∨ verb = .ended ∨ verb = .notify)

namespace Engine
variable {e : Engine}

/-- A connection that is ready asks for every scope from the cursor held. -/
theorem requests_onReady (e : Engine) : e.onReady.2 = e.cursors.requests := by
  have hkey (scope : Scope) : (e.resetWindows.entry scope).key = e.held scope :=
    e.held_resetWindows scope
  have hgroups : e.resetWindows.trackedGroups = e.groups.entries.map (·.1) := by
    simp [trackedGroups, GroupMap.groups, resetWindows, mapStates, GroupMap.map]
  simp only [onReady, hkey, scopes, hgroups, List.map_cons, List.map_map, Cursors.requests, cursors,
    GroupMap.map]
  refine congrArg₂ List.cons rfl (List.map_congr_left fun x hx => ?_)
  have hget : e.get? (.group x.1) = some x.2 := GroupMap.get?_of_mem hx
  simp only [Function.comp_apply, Scope.request, held, entry, hget, Option.getD_some]

lemma cursors_run_of_scope?_eq_none {ops : List Op} (h : ∀ op ∈ ops, op.scope? = none) :
    (e.run ops).cursors = e.cursors := by
  induction ops generalizing e with
  | nil => rfl
  | cons op ops ih =>
    change ((e.after op).run ops).cursors = _
    rw [ih fun op' hop' => h op' (List.mem_cons_of_mem _ hop')]
    refine Cursors.ext_get? fun scope => ?_
    rw [get?_cursors, get?_after, get?_cursors]
    have hop := h op List.mem_cons_self
    cases op with
    | ready => exact Option.map_map _ _ _
    | reset => exact Option.map_map _ _ _
    | _ => cases hop

end Engine

/-! ## Groups that are named -/

lemma Frame.names_iff {f : Frame} {g : Int64} :
    f.Names g ↔ ∃ op ∈ f.ops, op.scope? = some (.group g) := by
  unfold Names ops
  constructor
  · rintro ⟨verb, key, hmessage, rfl | rfl | rfl⟩
    · exact ⟨_, by rw [hmessage]; exact List.mem_singleton_self _, rfl⟩
    · exact ⟨_, by rw [hmessage]; exact List.mem_singleton_self _, rfl⟩
    · exact ⟨_, by rw [hmessage]; exact List.mem_singleton_self _, rfl⟩
  · rintro ⟨op, hop, hscope⟩
    split at hop
    · rename_i point hmessage
      obtain rfl := List.mem_singleton.mp hop
      exact ⟨.opened, point.key, by rw [hmessage, ← Option.some.inj hscope], .inl rfl⟩
    · rename_i point hmessage
      obtain rfl := List.mem_singleton.mp hop
      exact ⟨.ended, point.key, by rw [hmessage, ← Option.some.inj hscope], .inr (.inl rfl)⟩
    · rename_i point hmessage
      obtain rfl := List.mem_singleton.mp hop
      exact ⟨.notify, point.key, by rw [hmessage, ← Option.some.inj hscope], .inr (.inr rfl)⟩
    · cases hop

lemma RawFrame.names_iff {raw : RawFrame} {g : Int64} :
    (∃ f, raw.decode = .ok f ∧ f.Names g) ↔ ∃ op ∈ raw.ops, op.scope? = some (.group g) := by
  unfold ops
  cases raw.decode with
  | ok f => simp [Frame.names_iff]
  | error e => simp

lemma Session.Heard.ops_of_reads? {s : Session} {p : Progress} {now : Nat} {step : Session.Step}
    {raw : RawFrame} (h : s.Heard p now step) (hreads : s.reads? step = some raw) :
    s.ops step = raw.ops := by
  have habsurd (hlink : step.session.link = s.link) : s.ops step = raw.ops := by
    rw [reads?_of_link hlink] at hreads
    cases hreads
  cases h with
  | dispatched raw' link hstage hnext =>
    obtain rfl := Option.some.inj ((reads?_of_nextRaw hnext rfl).symm.trans hreads)
    simp only [ops, hstage, Bool.false_eq_true, if_false, hreads, Option.map_some, Option.getD_some]
  | finished duties link reason hstage hduty hends =>
    rw [hends.reads? rfl] at hreads
    cases hreads
  | _ => exact habsurd rfl

lemma Feed.exists_of_mem_frames {i : Nat} {c : Client} {ts : List Client.Turn} {raw : RawFrame}
    (h : raw ∈ (Feed.ofTurns i c ts).frames) :
    ∃ front t after s step, ts = front ++ t :: after ∧
      (c.playAll front).hears? i t = some (s, step) ∧ s.reads? step = some raw := by
  induction ts using List.reverseRecOn with
  | nil => cases h
  | append_singleton ts t ih =>
    rw [Feed.ofTurns_concat, Feed.note, Feed.client_ofTurns] at h
    rcases List.mem_append.mp h with h | h
    · obtain ⟨front, t', after, s, step, rfl, hhears, hreads⟩ := ih h
      exact ⟨front, t', after ++ [t], s, step, by simp, hhears, hreads⟩
    · obtain ⟨⟨s, step⟩, hhears, hreads⟩ := Option.bind_eq_some_iff.mp (Option.mem_toList.mp h)
      exact ⟨ts, t, [], s, step, rfl, hhears, hreads⟩

namespace Client
variable {c : Client} {i : Nat} {t : Turn} {g : Int64}

/-- The application asks to follow a group in a turn, or a frame of the server that names the group
is taken in. -/
inductive Names (c : Client) (t : Turn) (g : Int64) : Prop
  | application (i : Nat) (id : String) (hmove : t.move = .trackGroup i id g)
    (hhandle : (c.handle? i).isSome)
  | server (i : Nat) (s : Session) (step : Session.Step) (raw : RawFrame) (f : Frame)
    (hhears : c.hears? i t = some (s, step)) (hreads : s.reads? step = some raw)
    (hdecode : raw.decode = .ok f) (hnames : f.Names g)

def Named (c : Client) (ts : List Turn) (g : Int64) : Prop :=
  ∃ front t after, ts = front ++ t :: after ∧ (c.playAll front).Names t g

lemma ops_of_hears? {s : Session} {step : Session.Step} (h : c.hears? i t = some (s, step)) :
    c.ops t = s.ops step := by
  obtain ⟨holder, hmove, -⟩ := hears?_eq_some h
  simp only [ops, hmove, h, Option.map_some, Option.getD_some]

lemma Names.exists_op (h : c.Names t g) : ∃ op ∈ c.ops t, op.scope? = some (.group g) := by
  cases h with
  | application i id hmove hhandle =>
    exact ⟨.track g, by simp [ops, hmove, hhandle], rfl⟩
  | server i s step raw f hhears hreads hdecode hnames =>
    obtain ⟨holder, -, -, hstep, -⟩ := hears?_eq_some hhears
    rw [ops_of_hears? hhears, (Session.heard_of_mem_choices hstep).ops_of_reads? hreads]
    exact RawFrame.names_iff.mp ⟨f, hdecode, hnames⟩

lemma names_of_mem_ops {op : Engine.Op} (hop : op ∈ c.ops t)
    (hscope : op.scope? = some (.group g)) :
    c.Names t g ∨ ∃ i s step key persisted rest, c.hears? i t = some (s, step) ∧
      s.stage = .live (.commit (.group g) key persisted :: rest) := by
  unfold ops at hop
  split at hop
  · split at hop
    · obtain rfl := List.mem_singleton.mp hop
      cases hscope
    · cases hop
  · rename_i i hmove
    cases hhears : c.hears? i t with
    | none => simp [hhears] at hop
    | some heard =>
      obtain ⟨s, step⟩ := heard
      simp only [hhears, Option.map_some, Option.getD_some, Session.ops] at hop
      split at hop
      · obtain rfl := List.mem_singleton.mp hop
        cases hscope
      · split at hop
        · rename_i scope key persisted rest hstage
          obtain rfl := List.mem_singleton.mp hop
          obtain rfl := Option.some.inj hscope
          exact .inr ⟨i, s, step, key, persisted, rest, hhears, hstage⟩
        · cases hreads : s.reads? step with
          | none => simp [hreads] at hop
          | some raw =>
            rw [hreads, Option.map_some, Option.getD_some] at hop
            obtain ⟨f, hdecode, hnames⟩ := RawFrame.names_iff.mpr ⟨op, hop, hscope⟩
            exact .inl (.server i s step raw f hhears hreads hdecode hnames)
  · rename_i i id g' hmove
    split at hop
    · rename_i hhandle
      obtain rfl := List.mem_singleton.mp hop
      cases hscope
      exact .inl (.application i id hmove hhandle)
    · cases hop
  · cases hop

lemma mem_opsOf {ts : List Turn} {op : Engine.Op} : op ∈ c.opsOf ts ↔
    ∃ front t after, ts = front ++ t :: after ∧ op ∈ (c.playAll front).ops t := by
  induction ts generalizing c with
  | nil => simp [opsOf]
  | cons t ts ih =>
    rw [opsOf, List.mem_append, ih]
    constructor
    · rintro (hop | ⟨front, t', after, rfl, hop⟩)
      · exact ⟨[], t, ts, rfl, hop⟩
      · exact ⟨t :: front, t', after, rfl, hop⟩
    · rintro ⟨front, t', after, hts, hop⟩
      cases front with
      | nil =>
        obtain ⟨rfl, -⟩ := List.cons.inj hts
        exact .inl hop
      | cons t'' front =>
        obtain ⟨rfl, rfl⟩ := List.cons.inj hts
        exact .inr ⟨front, t', after, rfl, hop⟩

/-- The windows that end are those of groups that the server has named before. -/
lemma named_of_commit {ts : List Turn} (hnew : c.phase? i = none) {s : Session} {holder : Holder}
    (hphase : (c.playAll ts).phase? i = some (.established s holder)) {key : Int64}
    {persisted : Bool} {rest : List Duty}
    (hstage : s.stage = .live (.commit (.group g) key persisted :: rest)) : c.Named ts g := by
  have hagrees := Feed.agrees_ofTurns hnew ts
  rw [Feed.client_ofTurns, hphase] at hagrees
  rcases (hagrees.feeds.1.of_live hstage).1.cons with
    ⟨⟨m, hm⟩, -⟩ | ⟨-, before, raw, hframes, -, hof⟩
  · cases hm
  · obtain ⟨f, hdecode, hmessage⟩ := hof
    have hraw : raw ∈ (Feed.ofTurns i c ts).frames := by
      rw [hframes]
      exact List.mem_append_right _ (List.mem_singleton_self raw)
    obtain ⟨front, t, after, s', step, hts, hhears, hreads⟩ := Feed.exists_of_mem_frames hraw
    exact ⟨front, t, after, hts,
      .server i s' step raw f hhears hreads hdecode ⟨.ended, key, hmessage, .inr (.inl rfl)⟩⟩

lemma named_iff {ts : List Turn} (hnew : ∀ i, c.phase? i = none) :
    c.Named ts g ↔ ∃ op ∈ c.opsOf ts, op.scope? = some (.group g) := by
  constructor
  · rintro ⟨front, t, after, hts, hnames⟩
    obtain ⟨op, hop, hscope⟩ := hnames.exists_op
    exact ⟨op, mem_opsOf.mpr ⟨front, t, after, hts, hop⟩, hscope⟩
  · rintro ⟨op, hmem, hscope⟩
    obtain ⟨front, t, after, rfl, hop⟩ := mem_opsOf.mp hmem
    rcases names_of_mem_ops hop hscope with hnames |
      ⟨i, s, step, key, persisted, rest, hhears, hstage⟩
    · exact ⟨front, t, after, rfl, hnames⟩
    · obtain ⟨holder, -, hphase, -, -⟩ := hears?_eq_some hhears
      obtain ⟨front', t', after', rfl, hnames⟩ := named_of_commit (hnew i) hphase hstage
      exact ⟨front', t', after' ++ t :: after, by simp, hnames⟩

/-! ## The whole life of a client -/

section New
variable {config : Config} {store : CursorStore} {tokens : List (Except Error String)}
  {loaded : Cursors}

lemma engine_of_new (hnew : new config store tokens = .ok c) (hload : store.load = .ok loaded) :
    c.progress.engine =
      (Engine.ofCursors loaded).run (config.sync.groups.map .track ++ [.reset]) := by
  obtain ⟨hvalid, -⟩ := load_of_new hnew
  rw [new, hvalid, hload] at hnew
  cases hnew
  rw [Engine.run_append]
  have htracked (groups : List Int64) (e : Engine) :
      groups.foldl (fun e g => (e.trackGroup g).1) e = e.run (groups.map .track) := by
    rw [Engine.run, List.foldl_map]
    rfl
  rw [htracked]
  rfl

lemma phase?_of_new (hnew : new config store tokens = .ok c) (i : Nat) : c.phase? i = none := by
  obtain ⟨progress, rfl⟩ := eq_of_new hnew
  rfl

lemma engine_run (hnew : new config store tokens = .ok c) (hload : store.load = .ok loaded)
    (ts : List Turn) : (c.playAll ts).progress.engine = (Engine.ofCursors loaded).run
      ((config.sync.groups.map .track ++ [.reset]) ++ c.opsOf ts) := by
  rw [engine_playAll, engine_of_new hnew hload, ← Engine.run_append]

/-- The groups that a client has cursors for are those loaded, those configured, and those named by
the server or the application in the course of the run. -/
theorem tracked_run (hnew : new config store tokens = .ok c) (hload : store.load = .ok loaded)
    (ts : List Turn) : ((c.playAll ts).cursors.get? (.group g)).isSome ↔
      (loaded.get? (.group g)).isSome ∨ g ∈ config.sync.groups ∨ c.Named ts g := by
  rw [named_iff (phase?_of_new hnew), cursors, Engine.get?_cursors, Option.isSome_map,
    engine_run hnew hload, Engine.isSome_get?_run]
  have hloaded : ((Engine.ofCursors loaded).get? (.group g)).isSome ↔
      (loaded.get? (.group g)).isSome := by
    have hget : (Engine.ofCursors loaded).get? (.group g) =
        (loaded.groups.get? g).map fun key => { key } := GroupMap.get?_map _ loaded.groups g
    rw [hget, Option.isSome_map]
    rfl
  rw [hloaded]
  simp [or_and_right, exists_or, Engine.Op.scope?]

/-- The cursor held for a scope is the highest of the one loaded, zero if there was none, and of
those that windows have been committed at as stored. -/
theorem held_run (hnew : new config store tokens = .ok c) (hload : store.load = .ok loaded)
    (ts : List Turn) {scope : Scope} {key : Int64}
    (hkey : (c.playAll ts).cursors.get? scope = some key) :
    (loaded.at scope :: (c.opsOf ts).filterMap (·.stored? scope)).max? = some key := by
  have hadvances := Engine.advances_run loaded
    ((config.sync.groups.map .track ++ [.reset]) ++ c.opsOf ts)
  rw [← engine_run hnew hload] at hadvances
  have hnone (groups : List Int64) :
      (groups.map Engine.Op.track ++ [Engine.Op.reset]).filterMap (·.stored? scope) = [] := by
    simp [Engine.Op.stored?]
  rw [cursors, Engine.get?_cursors] at hkey
  have htracked : ((c.playAll ts).progress.engine.get? scope).isSome := by
    rw [← Option.isSome_map (f := (·.key)), hkey]
    rfl
  rw [← hkey, ← Engine.cursor?, hadvances.held scope htracked, List.filterMap_append, hnone,
    List.nil_append]

/-- A group that is configured does not reset the cursor loaded for it. -/
lemma cursors_of_new (hnew : new config store tokens = .ok c) (hload : store.load = .ok loaded)
    {scope : Scope} {key : Int64} (hkey : loaded.get? scope = some key) :
    c.cursors.get? scope = some key := by
  have htracked : (c.cursors.get? scope).isSome := by
    cases scope with
    | direct => rfl
    | group g => exact (tracked_run hnew hload []).mpr (.inl (by rw [hkey]; rfl))
  obtain ⟨held, hheld⟩ := Option.isSome_iff_exists.mp htracked
  have hmax := held_run hnew hload [] hheld
  rw [hheld, ← hmax, Cursors.at, hkey]
  rfl

end New

/-- A connection that comes to stand elsewhere, such as one that ends, moves no cursor. -/
theorem cursors_of_arrival {standing : Standing} (h : (i, standing) ∈ c.arrivals t) :
    (c.play t).cursors = c.cursors := by
  have habsurd (hstays : Stays c (c.play t)) : (c.play t).cursors = c.cursors := by
    rw [hstays.arrivals] at h
    cases h
  cases c.shared t with
  | still hstays hprogress => exact habsurd hstays
  | heard j s step hhears hended hstays hprogress => exact habsurd hstays
  | tracked j id g hmove hstays => exact habsurd hstays
  | arrived j standing' harrives hprogress => exact congrArg (·.engine.cursors) hprogress
  | welcomed j hmove harrives =>
    rw [cursors, engine_play]
    refine Engine.cursors_run_of_scope?_eq_none fun op hop => ?_
    simp only [ops, hmove] at hop
    split at hop
    · obtain rfl := List.mem_singleton.mp hop
      rfl
    · cases hop
  | ended j hmove harrives =>
    cases hhears : c.hears? j t with
    | none => rw [play_of_hears?_none hmove hhears]
    | some heard =>
      obtain ⟨s, step⟩ := heard
      obtain ⟨holder, -, hphase, hstep, hphase'⟩ := hears?_eq_some hhears
      have hended : step.ended = true := by
        rcases (Session.heard_of_mem_choices hstep).standing with ⟨-, hsame⟩ | ⟨hended, -, -⟩
        · have hrank := harrives.rank step.session.standing (by
            rw [standing?, hphase, hsame]
            rfl)
          have hhere := harrives.here
          rw [standing?, hphase'] at hhere
          have hstanding : step.session.standing = .ended := Option.some.inj hhere
          rw [hstanding] at hrank
          exact absurd hrank (Nat.lt_irrefl _)
        · exact hended
      rw [cursors, engine_play, ops_of_hears? hhears, Session.ops, hended]
      exact Engine.cursors_run_of_scope?_eq_none (by simp [Engine.Op.scope?])

end Client

end Parley
