import Parley.Proofs.Client.CatchingUp
import Parley.Proofs.Client.Following
import Parley.Proofs.Client.Tagging

/-!
# What stands behind a group that is followed

A group that is tracked already needs nothing when the application asks to follow it. What there is
for it then on a connection goes back to how it has come to be tracked: before the connection was
accepted, so that the connection has asked for it; by a call or a notice for which the connection
has queued the request or is about to; or in one of the ways that lead to no request on this
connection. Main statement: `Client.followed_run`.
-/

namespace Parley

/-! ## A request that is due -/

lemma Engine.request_handleNotify {e : Engine} {g key : Int64} (h : e.get? (.group g) = none)
    (hkey : 0 < key) :
    (e.handleNotify (.group g) key).2 = some ((Scope.group g).request 0) := by
  have hentry : e.entry (.group g) = { key := 0 } := by
    rw [entry_eq, h]
    rfl
  have hdue : ScopeState.notify { key := 0 } key = (ScopeState.request { key := 0 }, true) := by
    rw [ScopeState.notify, if_neg (Int64.not_le.mpr hkey), if_pos rfl]
  rw [handleNotify, hentry, hdue]
  rfl

namespace Session
variable {s : Session} {p : Progress} {now : Nat} {step : Session.Step} {m : Message}

lemma Heard.due_of_notice {raw : RawFrame} {f : Frame} {g key : Int64} (h : s.Heard p now step)
    (hreads : s.reads? step = some raw) (hdecode : raw.decode = .ok f)
    (hmessage : f.message = .sync .notify ⟨.group g, key⟩)
    (huntracked : p.engine.get? (.group g) = none) (hkey : 0 < key) :
    step.session.stage = .live [.send ((Scope.group g).request 0)] := by
  have habsurd (hlink : step.session.link = s.link) :
      step.session.stage = .live [.send ((Scope.group g).request 0)] := by
    rw [reads?_of_link hlink] at hreads
    cases hreads
  cases h with
  | dispatched raw' link hstage hnext =>
    obtain rfl := Option.some.inj ((reads?_of_nextRaw hnext rfl).symm.trans hreads)
    have hduties : (dispatch p s.tracker raw').duties = [.send ((Scope.group g).request 0)] := by
      simp only [dispatch, hdecode, dispatchFrame, hmessage, Progress.sync,
        Engine.request_handleNotify huntracked hkey, Option.toList_some, List.map_cons,
        List.map_nil]
    exact congrArg Stage.live hduties
  | finished duties link reason hstage hduty hends =>
    rw [hends.reads? rfl] at hreads
    cases hreads
  | _ => exact habsurd rfl

lemma Heard.due {duties : List Duty} {holder : Holder} (h : s.Heard p now step)
    (hstage : s.stage = .live duties) (hdue : .send m ∈ duties)
    (hopen : step.session.outbox.isOpen = true) :
    (∃ duties, step.session.stage = .live duties ∧ .send m ∈ duties) ∨
      .own m ∈ newly (some (.established s holder)) (some (.established step.session holder)) := by
  -- a first duty that is done leaves the other ones
  have hothers {duty : Duty} {rest : List Duty} (hstage' : s.stage = .live (duty :: rest))
      (hne : duty ≠ .send m) : .send m ∈ rest := by
    obtain rfl : duties = duty :: rest := by simpa using hstage.symm.trans hstage'
    rcases List.mem_cons.mp hdue with rfl | hrest
    · exact absurd rfl hne
    · exact hrest
  have hnone {stage : Stage} (hstage' : s.stage = stage) (hempty : stage = .live [] ∨
      stage = .leaving) : False := by
    rcases hempty with rfl | rfl
    · obtain rfl : duties = [] := by simpa using hstage.symm.trans hstage'
      cases hdue
    · cases hstage.symm.trans hstage'
  cases h with
  | sent m' rest outbox hstage' hoffer =>
    obtain ⟨-, rfl⟩ := Outbox.offer_taken hoffer
    by_cases hm : m' = m
    · subst hm
      refine .inr ?_
      simp [newly, aheadOf, Sending.ahead, sending, Outgoing.own]
    · exact .inl ⟨rest, rfl, hothers hstage' (by simpa using hm)⟩
  | lined m' rest outbox hstage' hoffer => exact .inl ⟨duties, hstage, hdue⟩
  | persisted scope key cursors rest hstage' =>
    exact .inl ⟨_, rfl, List.mem_cons_of_mem _ (hothers hstage' (by simp))⟩
  | committed scope key persisted rest hstage' =>
    exact .inl ⟨_, rfl, List.mem_append_right _ (hothers hstage' (by simp))⟩
  | handedOut duty ev rest backlog channel hstage' hduty hput =>
    refine .inl ⟨rest, rfl, hothers hstage' ?_⟩
    rintro rfl
    cases hduty
  | dispatched raw link hstage' hnext => exact (hnone hstage' (.inl rfl)).elim
  | pinged hstage' hdue' => exact (hnone hstage' (.inl rfl)).elim
  | refilled ev backlog hstage' => exact (hnone rfl hstage').elim
  | left hstage' => exact (hnone hstage' (.inr rfl)).elim
  | finished duties' link reason hstage' hduty hends => cases hopen

end Session

lemma Engine.exists_mem_requests {e : Engine} {g : Int64} (h : (e.get? (.group g)).isSome) :
    ∃ key, (Scope.group g).request key ∈ e.cursors.requests := by
  have hscope : Scope.group g ∈ e.resetWindows.scopes := by
    rw [mem_scopes, resetWindows, get?_mapStates, Option.isSome_map]
    exact h
  refine ⟨(e.resetWindows.entry (.group g)).key, ?_⟩
  rw [← requests_onReady]
  exact List.mem_map_of_mem (f := fun scope => scope.request (e.resetWindows.entry scope).key)
    hscope

namespace Client
variable {c : Client} {i n : Nat} {t : Turn} {g : Int64} {run past after : List Turn}

/-- The application asks on a connection to follow a group, or a frame that names the group is taken
in there. -/
inductive NamesOn (c : Client) (i : Nat) (t : Turn) (g : Int64) : Prop
  | application (id : String) (hmove : t.move = .trackGroup i id g)
    (hhandle : (c.handle? i).isSome)
  | server (s : Session) (step : Session.Step) (raw : RawFrame) (f : Frame)
    (hhears : c.hears? i t = some (s, step)) (hreads : s.reads? step = some raw)
    (hdecode : raw.decode = .ok f) (hnames : f.Names g)

lemma Names.exists_on (h : c.Names t g) : ∃ i, c.NamesOn i t g := by
  cases h with
  | application i id hmove hhandle => exact ⟨i, .application id hmove hhandle⟩
  | server i s step raw f hhears hreads hdecode hnames =>
    exact ⟨i, .server s step raw f hhears hreads hdecode hnames⟩

/-- A turn of a run finds a group untracked, and a session of a connection there. -/
structure Finds (c : Client) (i : Nat) (g : Int64) (run before : List Turn) (t : Turn)
    (later : List Turn) : Prop where
  split : run = before ++ t :: later
  begun : ∃ s holder, (c.playAll before).phase? i = some (.established s holder)
  untracked : (c.playAll before).progress.engine.get? (.group g) = none

/-- What there is for a group on a connection when the group is tracked. -/
inductive Grounds (c : Client) (i : Nat) (g : Int64) (run : List Turn) : Prop
  | asked (item : Outgoing) (key : Int64) (hitem : item ∈ (Journal.ofTurns c run).queued i)
    (hmessage : item.message = .sync .request ⟨.group g, key⟩)
  | due (s : Session) (holder : Holder) (duties : List Duty) (key : Int64)
    (hphase : (c.playAll run).phase? i = some (.established s holder))
    (hstage : s.stage = .live duties) (hdue : .send (.sync .request ⟨.group g, key⟩) ∈ duties)
  | offered (k : Nat) (call : Call) (hcall : (c.playAll run).calls[k]? = some call)
    (hconnection : call.connection = i) (hstage : call.stage = .offering (.asking g k))
  | opened (raw : RawFrame) (f : Frame) (key : Int64)
    (hraw : raw ∈ (Feed.ofTurns i c run).frames) (hdecode : raw.decode = .ok f)
    (hmessage : f.message = .sync .opened ⟨.group g, key⟩)
  /-- The group was first met in a frame on the connection that has no request in its wake: one that
  closes a window, or a notice of a key that is not above zero. -/
  | met (before : List Turn) (t : Turn) (later : List Turn) (s : Session) (step : Session.Step)
    (raw : RawFrame) (f : Frame) (verb : SyncVerb) (key : Int64)
    (hfinds : c.Finds i g run before t later)
    (hhears : (c.playAll before).hears? i t = some (s, step)) (hreads : s.reads? step = some raw)
    (hdecode : raw.decode = .ok f) (hmessage : f.message = .sync verb ⟨.group g, key⟩)
    (hverb : verb = .ended ∨ verb = .notify ∧ key ≤ 0)
  | elsewhere (before : List Turn) (t : Turn) (later : List Turn) (j : Nat)
    (hfinds : c.Finds i g run before t later) (hj : j ≠ i)
    (hnames : (c.playAll before).NamesOn j t g)

/-- The application was refused when it first asked for a group on a connection. -/
def Refused (c : Client) (i : Nat) (g : Int64) (run : List Turn) : Prop :=
  ∃ before t later id s holder, c.Finds i g run before t later ∧ t.move = .trackGroup i id g ∧
    (c.playAll before).handle? i = some (s, holder) ∧ (c.playAll before).handleState s ≠ .ready

lemma Finds.concat {before later : List Turn} {t : Turn} (h : c.Finds i g run before t later)
    (t' : Turn) : c.Finds i g (run ++ [t']) before t (later ++ [t']) :=
  ⟨by rw [h.split, List.append_assoc, List.cons_append], h.begun, h.untracked⟩

lemma Refused.concat (h : c.Refused i g run) (t : Turn) : c.Refused i g (run ++ [t]) := by
  obtain ⟨before, t', later, id, s, holder, hfinds, hrest⟩ := h
  exact ⟨before, t', later ++ [t], id, s, holder, hfinds.concat t, hrest⟩

/-! ## One turn -/

section Turn
variable {s s' : Session} {holder holder' : Holder}

lemma mem_queued_concat {item : Outgoing} (h : item ∈ (Journal.ofTurns c run).queued i)
    (t : Turn) : item ∈ (Journal.ofTurns c (run ++ [t])).queued i := by
  rw [Journal.ofTurns_concat, Journal.queued_play]
  exact List.mem_append_left _ h

lemma mem_queued_of_newly {item : Outgoing}
    (h : item ∈ newly ((c.playAll run).phase? i) (((c.playAll run).play t).phase? i)) :
    item ∈ (Journal.ofTurns c (run ++ [t])).queued i := by
  rw [Journal.ofTurns_concat, Journal.queued_play, Journal.client_ofTurns]
  exact List.mem_append_right _ h

lemma offering_play {k : Nat} {call : Call} {item : Outgoing} (hcall : c.calls[k]? = some call)
    (hstage : call.stage = .offering item)
    (hphase : c.phase? call.connection = some (.established s holder))
    (hopen : s.outbox.isOpen = true) (t : Turn) :
    (∃ call', (c.play t).calls[k]? = some call' ∧ call'.connection = call.connection ∧
      call'.stage = .offering item) ∨
      item ∈ newly (c.phase? call.connection) ((c.play t).phase? call.connection) := by
  by_cases hmove : t.move = .act (.calling k)
  · have hplay : c.play t = (c.callOn? k call s holder).getD c := by
      rw [play_of_ne (by rw [hmove]; simp), hmove]
      simp only [move, act?, hcall, hphase]
    rw [hplay]
    simp only [callOn?, hstage]
    cases hoffer : s.outbox.offer (.call k) item with
    | taken outbox =>
      obtain ⟨-, rfl⟩ := Outbox.offer_taken hoffer
      refine .inr ?_
      change item ∈ newly _ ((c.setPhase call.connection _).phase? call.connection)
      rw [phase?_setPhase_self c hphase, hphase]
      simp [newly, aheadOf, Sending.ahead, Session.sending]
    | lined outbox => exact .inl ⟨call, hcall, rfl, hstage⟩
    | stuck => exact .inl ⟨call, hcall, rfl, hstage⟩
    | closed =>
      cases hopen.symm.trans (Outbox.offer_closed hoffer)
  · obtain ⟨call', hcall', hconnection, hstage'⟩ := call_unmoved hcall hmove
    exact .inl ⟨call', hcall', hconnection, hstage'.trans hstage⟩

lemma due_play {duties : List Duty} {m : Message}
    (hphase : c.phase? i = some (.established s holder)) (hstage : s.stage = .live duties)
    (hdue : .send m ∈ duties) (hphase' : (c.play t).phase? i = some (.established s' holder'))
    (hopen : s'.outbox.isOpen = true) :
    (∃ duties, s'.stage = .live duties ∧ .send m ∈ duties) ∨
      .own m ∈ newly (c.phase? i) ((c.play t).phase? i) := by
  cases hhears : c.hears? i t with
  | some heard =>
    obtain ⟨s₁, step⟩ := heard
    obtain ⟨holder₁, -, hphase₁, hchoice, hstep⟩ := hears?_eq_some hhears
    obtain ⟨rfl, rfl⟩ : s = s₁ ∧ holder = holder₁ := by simpa using hphase.symm.trans hphase₁
    obtain ⟨rfl, rfl⟩ : s' = step.session ∧ holder' = holder := by
      simpa using hphase'.symm.trans hstep
    rw [hphase, hphase']
    exact (Session.heard_of_mem_choices hchoice).due hstage hdue hopen
  | none =>
    refine .inl ⟨duties, ?_, hdue⟩
    by_cases hmove : t.move = .act (.reading i)
    · rw [play_of_hears?_none hmove hhears, hphase] at hphase'
      obtain ⟨rfl, -⟩ : s = s' ∧ holder = holder' := by simpa using hphase'
      exact hstage
    · have hmoved := c.phaseMoved_play t i
      rw [hphase'] at hmoved
      rcases hmoved.stage hmove rfl with ⟨link, -, hgreeting⟩ | ⟨s₁, holder₁, hphase₁, honward⟩
      · cases hphase.symm.trans hgreeting
      · obtain ⟨rfl, -⟩ : s = s₁ ∧ holder = holder₁ := by simpa using hphase.symm.trans hphase₁
        rw [hstage] at honward
        generalize hnew : s'.stage = stage at honward
        cases honward with
        | same => rfl

lemma Grounds.concat (h : c.Grounds i g run)
    (hphase : (c.playAll run).phase? i = some (.established s holder))
    (hopen : s.outbox.isOpen = true) (t : Turn)
    (hphase' : ((c.playAll run).play t).phase? i = some (.established s' holder'))
    (hopen' : s'.outbox.isOpen = true) : c.Grounds i g (run ++ [t]) := by
  have hrun : c.playAll (run ++ [t]) = (c.playAll run).play t := playAll_concat c run t
  cases h with
  | asked item key hitem hmessage => exact .asked item key (mem_queued_concat hitem t) hmessage
  | due s₁ holder₁ duties key hphase₁ hstage hdue =>
    rcases due_play hphase₁ hstage hdue hphase' hopen' with ⟨duties', hstage', hdue'⟩ | hnewly
    · exact .due s' holder' duties' key (hrun ▸ hphase') hstage' hdue'
    · exact .asked _ key (mem_queued_of_newly hnewly) rfl
  | offered k call hcall hconnection hstage =>
    subst hconnection
    rcases offering_play hcall hstage hphase hopen t with
      ⟨call', hcall', hconnection', hstage'⟩ | hnewly
    · exact .offered k call' (hrun ▸ hcall') hconnection' hstage'
    · exact .asked _ 0 (mem_queued_of_newly hnewly) rfl
  | opened raw f key hraw hdecode hmessage =>
    refine .opened raw f key ?_ hdecode hmessage
    rw [Feed.ofTurns_concat]
    exact List.mem_append_left _ hraw
  | met before t' later s₁ step raw f verb key hfinds hhears hreads hdecode hmessage hverb =>
    exact .met before t' (later ++ [t]) s₁ step raw f verb key (hfinds.concat t) hhears hreads
      hdecode hmessage hverb
  | elsewhere before t' later j hfinds hj hnames =>
    exact .elsewhere before t' (later ++ [t]) j (hfinds.concat t) hj hnames

/-- When the application is the first to name a group and is not refused, a call on the connection
has the request for it to queue. -/
lemma Grounds.of_application
    (hphase : (c.playAll run).phase? i = some (.established s holder))
    (huntracked : (c.playAll run).progress.engine.get? (.group g) = none) {id : String}
    (hmove : t.move = .trackGroup i id g) (hhandle : ((c.playAll run).handle? i).isSome)
    (hnone : ¬ c.Refused i g (run ++ [t])) : c.Grounds i g (run ++ [t]) := by
  obtain ⟨m, n⟩ := t
  obtain rfl : m = .trackGroup i id g := hmove
  obtain ⟨⟨s₁, holder₁⟩, hhandle⟩ := Option.isSome_iff_exists.mp hhandle
  have hfollow := follow_trackGroup hhandle id g n
  generalize hplay : (c.playAll run).play ⟨.trackGroup i id g, n⟩ = c' at hfollow
  cases hfollow with
  | known htracked =>
    rw [huntracked] at htracked
    cases htracked
  | refused huntracked' hready =>
    exact absurd ⟨run, _, [], id, s₁, holder₁, ⟨rfl, ⟨s, holder, hphase⟩, huntracked⟩, rfl,
      hhandle, hready⟩ hnone
  | started huntracked' hready =>
    have hstarted : (c.playAll (run ++ [⟨.trackGroup i id g, n⟩])).calls =
        (c.playAll run).calls ++
          [⟨id, i, .nothing, .offering (.asking g (c.playAll run).calls.length), .empty,
            .empty⟩] := by
      rw [playAll_concat, hplay]
      rfl
    exact .offered _ _ (by rw [hstarted]; exact List.getElem?_concat_length) rfl rfl

/-- When a frame is the first to name a group, it opens a window of the group, or the request for it
is due, or it is one that has no request in its wake. -/
lemma Grounds.of_server (huntracked : (c.playAll run).progress.engine.get? (.group g) = none)
    {step : Session.Step} {raw : RawFrame} {f : Frame}
    (hhears : (c.playAll run).hears? i t = some (s, step)) (hreads : s.reads? step = some raw)
    (hdecode : raw.decode = .ok f) (hnames : f.Names g) : c.Grounds i g (run ++ [t]) := by
  obtain ⟨holder, -, hphase, hchoice, hphase'⟩ := hears?_eq_some hhears
  have hfinds : c.Finds i g (run ++ [t]) run t [] := ⟨rfl, ⟨s, holder, hphase⟩, huntracked⟩
  obtain ⟨verb, key, hmessage, rfl | rfl | rfl⟩ := hnames
  · refine .opened raw f key ?_ hdecode hmessage
    simp only [Feed.ofTurns_concat, Feed.note, Feed.client_ofTurns, hhears, Option.bind_some,
      hreads]
    exact List.mem_append_right _ (List.mem_singleton_self raw)
  · exact .met run t [] s step raw f .ended key hfinds hhears hreads hdecode hmessage (.inl rfl)
  · by_cases hkey : 0 < key
    · have hstage := (Session.heard_of_mem_choices hchoice).due_of_notice hreads hdecode hmessage
        huntracked hkey
      exact .due step.session holder _ 0 ((playAll_concat c run t).symm ▸ hphase') hstage
        (List.mem_singleton_self _)
    · exact .met run t [] s step raw f .notify key hfinds hhears hreads hdecode hmessage
        (.inr ⟨rfl, Int64.not_lt.mp hkey⟩)

lemma Grounds.of_names (hphase : (c.playAll run).phase? i = some (.established s holder))
    (huntracked : (c.playAll run).progress.engine.get? (.group g) = none)
    (hnames : (c.playAll run).Names t g) (hnone : ¬ c.Refused i g (run ++ [t])) :
    c.Grounds i g (run ++ [t]) := by
  obtain ⟨j, hon⟩ := hnames.exists_on
  by_cases hj : j = i
  · subst hj
    cases hon with
    | application id hmove hhandle => exact .of_application hphase huntracked hmove hhandle hnone
    | server s₁ step raw f hhears hreads hdecode hnames =>
      exact .of_server huntracked hhears hreads hdecode hnames
  · exact .elsewhere run t [] j ⟨rfl, ⟨s, holder, hphase⟩, huntracked⟩ hj hon

end Turn

/-! ## The session of a connection -/

section New
variable {config : Config} {store : CursorStore} {tokens : List (Except Error String)}
  {s s' : Session} {holder holder' : Holder}

lemma established_before (hphase' : (c.play t).phase? i = some (.established s' holder')) :
    (∃ link, t.move = .act (.connecting i) ∧
      c.phase? i = some (.greeting (.done (.ok ())) link)) ∨
      ∃ s holder, c.phase? i = some (.established s holder) := by
  cases hhears : c.hears? i t with
  | some heard =>
    obtain ⟨s, step⟩ := heard
    obtain ⟨holder, -, hphase, -⟩ := hears?_eq_some hhears
    exact .inr ⟨s, holder, hphase⟩
  | none =>
    by_cases hmove : t.move = .act (.reading i)
    · rw [play_of_hears?_none hmove hhears] at hphase'
      exact .inr ⟨s', holder', hphase'⟩
    · have hmoved := c.phaseMoved_play t i
      rw [hphase'] at hmoved
      rcases hmoved.stage hmove rfl with hbegan | ⟨s, holder, hphase, -⟩
      · exact .inl hbegan
      · exact .inr ⟨s, holder, hphase⟩

lemma open_before (hnew : new config store tokens = .ok c)
    (hphase : (c.playAll run).phase? i = some (.established s holder))
    (hphase' : ((c.playAll run).play t).phase? i = some (.established s' holder'))
    (hopen' : s'.outbox.isOpen = true) : s.outbox.isOpen = true := by
  by_contra hclosed
  have hlane := ((Journal.sound_start hnew).ofTurns run).lanes i
  obtain ⟨out, -, hpasses⟩ := ((c.playAll run).moved_play t).passes i
  rw [Journal.client_ofTurns] at hlane
  have hover : overOf ((c.playAll run).phase? i) = true := by simpa [hphase, overOf] using hclosed
  have hover' := (Journal.over_of_lane hlane hpasses hover).1
  rw [hphase', overOf, hopen'] at hover'
  cases hover'

lemma exists_began (hnew : c.phase? i = none)
    (hphase : (c.playAll run).phase? i = some (.established s holder)) :
    ∃ front n since link, run = front ++ ⟨.act (.connecting i), n⟩ :: since ∧
      (c.playAll front).phase? i = some (.greeting (.done (.ok ())) link) := by
  induction run using List.reverseRecOn generalizing s holder with
  | nil => cases hnew.symm.trans hphase
  | append_singleton run t ih =>
    rw [playAll_concat] at hphase
    rcases established_before hphase with ⟨link, hmove, hgreeting⟩ | ⟨s₁, holder₁, hphase₁⟩
    · obtain ⟨m, n⟩ := t
      obtain rfl : m = .act (.connecting i) := hmove
      exact ⟨run, n, [], link, rfl, hgreeting⟩
    · obtain ⟨front, n, since, link, rfl, hgreeting⟩ := ih hphase₁
      exact ⟨front, n, since ++ [t], link, by simp, hgreeting⟩

lemma not_greeting {front : List Turn} {link link' : Link} {h : Handshake}
    (hgreeted : (c.playAll front).phase? i = some (.greeting (.done (.ok ())) link)) (n : Nat)
    (since : List Turn) : (c.playAll (front ++ ⟨.act (.connecting i), n⟩ :: since)).phase? i ≠
      some (.greeting h link') := by
  intro hgreeting
  have hwelcome : (c.playAll (front ++ [⟨.act (.connecting i), n⟩])).standing? i =
      some .welcome := by
    rw [playAll_concat, standing?, (play_began hgreeted n).1]
    rfl
  obtain ⟨standing, hstanding, hrank⟩ := standing?_playAll hwelcome since
  rw [← playAll_append, List.append_assoc, List.singleton_append, standing?, hgreeting] at hstanding
  obtain rfl := Option.some.inj hstanding
  change Standing.welcome.rank ≤ Standing.attempting.rank at hrank
  exact absurd hrank (by decide)

lemma names_of_isSome (hnew : new config store tokens = .ok c)
    (huntracked : (c.playAll run).progress.engine.get? (.group g) = none)
    (htracked : (((c.playAll run).play t).progress.engine.get? (.group g)).isSome) :
    (c.playAll run).Names t g := by
  obtain ⟨-, loaded, hload⟩ := load_of_new hnew
  rw [engine_play, Engine.isSome_get?_run, huntracked] at htracked
  obtain ⟨op, hop, hscope⟩ := htracked.resolve_left (by simp)
  rcases names_of_mem_ops hop hscope with
    hnames | ⟨j, s, step, key, persisted, rest, hhears, hstage⟩
  · exact hnames
  · obtain ⟨holder, -, hphase, -⟩ := hears?_eq_some hhears
    have hnamed := named_of_commit (phase?_of_new hnew j) hphase hstage
    have hget := (tracked_run hnew hload run).mpr (.inr (.inr hnamed))
    rw [cursors, Engine.get?_cursors, huntracked] at hget
    cases hget

lemma grounds_since (hnew : new config store tokens = .ok c) {front : List Turn} {link : Link}
    (hgreeted : (c.playAll front).phase? i = some (.greeting (.done (.ok ())) link))
    (huntracked : (c.playAll front).progress.engine.get? (.group g) = none) (n : Nat)
    (since : List Turn)
    (hphase : (c.playAll (front ++ ⟨.act (.connecting i), n⟩ :: since)).phase? i =
      some (.established s holder)) (hopen : s.outbox.isOpen = true)
    (htracked : ((c.playAll (front ++ ⟨.act (.connecting i), n⟩ :: since)).progress.engine.get?
      (.group g)).isSome)
    (hnone : ¬ c.Refused i g (front ++ ⟨.act (.connecting i), n⟩ :: since)) :
    c.Grounds i g (front ++ ⟨.act (.connecting i), n⟩ :: since) := by
  induction since using List.reverseRecOn generalizing s holder with
  | nil =>
    rw [playAll_concat, (play_began hgreeted n).2] at htracked
    have hready : (c.playAll front).progress.engine.onReady.1 =
        (c.playAll front).progress.engine.after .ready := rfl
    rw [hready, Engine.isSome_get?_after, huntracked] at htracked
    simp [Engine.Op.scope?] at htracked
  | append_singleton since t ih =>
    rw [← List.cons_append, ← List.append_assoc] at hphase htracked hnone ⊢
    generalize hrun : front ++ ⟨.act (.connecting i), n⟩ :: since = run at *
    rw [playAll_concat] at hphase htracked
    rcases established_before hphase with ⟨link', -, hgreeting⟩ | ⟨s₁, holder₁, hphase₁⟩
    · exact absurd (hrun ▸ hgreeting) (not_greeting hgreeted n since)
    · have hopen₁ := open_before hnew hphase₁ hphase hopen
      cases hget : (c.playAll run).progress.engine.get? (.group g) with
      | some state =>
        have hbefore : ¬ c.Refused i g run := fun h => hnone (h.concat t)
        exact (ih hphase₁ hopen₁ (by rw [hget]; rfl) hbefore).concat hphase₁ hopen₁ t hphase hopen
      | none => exact .of_names hphase₁ hget (names_of_isSome hnew hget htracked) hnone

/-- There is something for every group that is tracked on a connection that can send, unless the
application was refused there. -/
lemma grounds_run (hnew : new config store tokens = .ok c)
    (hhandle : (c.playAll run).handle? i = some (s, holder)) (hopen : s.outbox.isOpen = true)
    (htracked : ((c.playAll run).progress.engine.get? (.group g)).isSome)
    (hnone : ¬ c.Refused i g run) : c.Grounds i g run := by
  have hphase := handle?_eq_some hhandle
  obtain ⟨front, n, since, link, rfl, hgreeted⟩ := exists_began (phase?_of_new hnew i) hphase
  cases hget : (c.playAll front).progress.engine.get? (.group g) with
  | none => exact grounds_since hnew hgreeted hget n since hphase hopen htracked hnone
  | some state =>
    obtain ⟨key, hrequest⟩ := Engine.exists_mem_requests (e := (c.playAll front).progress.engine)
      (g := g) (by rw [hget]; rfl)
    have hcatches := catchesUp_run hnew hgreeted n since
    rw [hphase] at hcatches
    generalize hqueued : (Journal.ofTurns c (front ++ ⟨.act (.connecting i), n⟩ :: since)).queued i
      = queued at hcatches
    cases hcatches with
    | asking _ _ requests h hitems =>
      simp [handle?, hphase, h.stage] at hhandle
    | asked _ h =>
      refine .asked (.own ((Scope.group g).request key)) key ?_ rfl
      rw [hqueued]
      exact h.subset (List.mem_map_of_mem hrequest)

lemma answers_ofTurns_append {c : Client} {x : Nat × Outcome} (past after : List Turn)
    (h : x ∈ (Journal.ofTurns (c.playAll past) after).answers) :
    x ∈ (Journal.ofTurns c (past ++ after)).answers := by
  induction after using List.reverseRecOn with
  | nil => cases h
  | append_singleton after t ih =>
    rw [← List.append_assoc, Journal.ofTurns_concat] at *
    have hclient : (Journal.ofTurns c (past ++ after)).client =
        (Journal.ofTurns (c.playAll past) after).client := by
      rw [Journal.client_ofTurns, Journal.client_ofTurns, playAll_append]
    simp only [Journal.play] at h ⊢
    rw [hclient]
    split at h
    · rcases List.mem_append.mp h with hmem | hmem
      · exact List.mem_append_left _ (ih hmem)
      · exact List.mem_append_right _ hmem
    · exact ih h

lemma asked_ofTurns_append {c : Client} {k : Nat} {x : Option Outgoing} {past : List Turn}
    (h : (Journal.ofTurns c past).asked[k]? = some x) (after : List Turn) :
    (Journal.ofTurns c (past ++ after)).asked[k]? = some x := by
  induction after using List.reverseRecOn with
  | nil => rwa [List.append_nil]
  | append_singleton after t ih =>
    rw [← List.append_assoc, Journal.ofTurns_concat]
    exact Journal.asked_mono ih

lemma call_playAll {c : Client} {k : Nat} {call : Call} (hcall : c.calls[k]? = some call)
    (ts : List Turn) :
    ∃ call', (c.playAll ts).calls[k]? = some call' ∧ call'.connection = call.connection := by
  induction ts using List.reverseRecOn with
  | nil => exact ⟨call, hcall, rfl⟩
  | append_singleton ts t ih =>
    obtain ⟨call₁, hcall₁, hconnection₁⟩ := ih
    obtain ⟨call₂, hcall₂, hconnection₂, -⟩ :=
      Journal.call_kept (j := { client := c.playAll ts }) (t := t) hcall₁
    rw [playAll_concat]
    exact ⟨call₂, hcall₂, hconnection₂.trans hconnection₁⟩

lemma wrote_of_done (hnew : new config store tokens = .ok c) {call : Call} {item : Outgoing}
    (hcalls : ((c.playAll past).play t).calls = (c.playAll past).calls ++ [call])
    (hstage : call.stage = .offering item)
    (hdone : ((c.playAll past).calls.length, .done) ∈
      (Journal.ofTurns (c.playAll past) (t :: after)).answers) :
    ∃ seq, (Journal.ofTurns c (past ++ t :: after)).Wrote call.connection item seq := by
  have hsound := (Journal.sound_start hnew).ofTurns past
  have hsound' := (Journal.sound_start hnew).ofTurns (past ++ t :: after)
  have hstarted : ((c.playAll past).play t).calls[(c.playAll past).calls.length]? = some call := by
    rw [hcalls]
    exact List.getElem?_concat_length
  have hasked : (Journal.ofTurns c (past ++ t :: after)).asked[(c.playAll past).calls.length]? =
      some (some item) := by
    rw [List.append_cons]
    refine asked_ofTurns_append ?_ after
    have hitem : call.item? = some item := by rw [Call.item?, hstage]
    rw [Journal.ofTurns_concat, ← hitem]
    refine hsound.asked_of_started ?_ ?_
    · rw [Journal.client_ofTurns]
    · rw [Journal.client_ofTurns]
      exact hstarted
  obtain ⟨call', hcall', hsettles⟩ := hsound'.answered _ _ (answers_ofTurns_append past _ hdone)
  obtain ⟨call'', hcall'', hconnection⟩ := call_playAll hstarted after
  have hrun : c.playAll (past ++ t :: after) = ((c.playAll past).play t).playAll after :=
    playAll_append c past (t :: after)
  rw [Journal.client_ofTurns, hrun, hcall''] at hcall'
  obtain rfl := Option.some.inj hcall'
  cases hsettles with
  | done item' seq hasked' hwants hfate =>
    obtain rfl := Journal.asked_unique hasked hasked'
    exact ⟨seq, hconnection ▸ hsound'.wrote_of_fate hfate⟩
  | awaited item' seq _ hasked' hwants hfate houtcome =>
    rcases houtcome with ⟨a, ha⟩ | hclosed | htimeout
    · cases ha
    · cases hclosed
    · cases htimeout
  | stopped hasked' => cases hasked.symm.trans hasked'

/-- When the application is told on a connection that can send that a group is followed, the group
was tracked and there is something for it there, unless the application was refused when it first
asked for it, or the request for it has been queued and has gone out. -/
theorem followed_run (hnew : new config store tokens = .ok c) {id : String}
    (hhandle : (c.playAll past).handle? i = some (s, holder))
    (hready : (c.playAll past).handleState s = .ready)
    (hdone : (c.playAll past).Returns ⟨.trackGroup i id g, n⟩ after .done) :
    ((c.playAll past).progress.engine.get? (.group g)).isSome ∧
      (¬ c.Refused i g past → c.Grounds i g past) ∨
      (c.playAll past).progress.engine.get? (.group g) = none ∧
        ∃ item seq, item.message = .sync .request ⟨.group g, 0⟩ ∧
          item ∈ (Journal.ofTurns c (past ++ ⟨.trackGroup i id g, n⟩ :: after)).queued i ∧
          (Journal.ofTurns c (past ++ ⟨.trackGroup i id g, n⟩ :: after)).Wrote i item seq := by
  have hopen : s.outbox.isOpen = true := by
    by_contra hclosed
    rw [handleState, if_neg hclosed] at hready
    cases hready
  have hfollow := follow_trackGroup hhandle id g n
  generalize hplay : (c.playAll past).play ⟨.trackGroup i id g, n⟩ = c' at hfollow
  cases hfollow with
  | known htracked => exact .inl ⟨htracked, grounds_run hnew hhandle hopen htracked⟩
  | refused huntracked hnot => exact absurd hready hnot
  | started huntracked =>
    cases hdone with
    | atOnce name time hresults =>
      rw [hplay] at hresults
      simp [addCall, tracking] at hresults
    | later hcalls hanswer =>
      have hstarted : ((c.playAll past).play ⟨.trackGroup i id g, n⟩).calls =
          (c.playAll past).calls ++
            [⟨id, i, .nothing, .offering (.asking g (c.playAll past).calls.length), .empty,
              .empty⟩] := by
        rw [hplay]
        rfl
      obtain ⟨seq, hwrote⟩ := wrote_of_done hnew hstarted rfl hanswer
      have hplace := hwrote
      obtain ⟨auth, before, octets, -, hqueued, -⟩ := hplace
      exact .inr ⟨huntracked, _, seq, rfl, hqueued.subset (by simp), hwrote⟩

end New

/-- A call queues the request for a group, and the writer takes it. -/
def asking : List Turn :=
  firsts ([.act (.calling 0)] ++ List.replicate 4 (.act (.writing 0)) ++ [.act (.calling 0)])

/-- The request for a group goes out behind that for the direct inbox. -/
theorem followed_run_asking :
    new .least (.memory .zero) [] = .ok least ∧
      (least.playAll (firsts introducing)).Returns (.first (.trackGroup 0 "t" 7)) asking .done ∧
      ∃ item seq, item.message = .sync .request ⟨.group 7, 0⟩ ∧
        item ∈ (Journal.ofTurns least
          (firsts introducing ++ .first (.trackGroup 0 "t" 7) :: asking)).queued 0 ∧
        (Journal.ofTurns least
          (firsts introducing ++ .first (.trackGroup 0 "t" 7) :: asking)).Wrote 0 item seq := by
  have hready : ((least.playAll (firsts introducing)).handle? 0).map
      (fun found => (least.playAll (firsts introducing)).handleState found.1) = some .ready := by
    decide +kernel
  obtain ⟨⟨s, holder⟩, hhandle, hready⟩ := Option.map_eq_some_iff.mp hready
  have hreturns : (least.playAll (firsts introducing)).Returns (.first (.trackGroup 0 "t" 7))
      asking .done := .later (by decide +kernel) (by decide +kernel)
  refine ⟨new_least, hreturns, ?_⟩
  rcases followed_run new_least hhandle hready hreturns with ⟨htracked, -⟩ | ⟨-, hsent⟩
  · exact absurd htracked (by decide +kernel)
  · exact hsent

/-- The application is told on a ready session that a group is followed, and besides the request for
the direct inbox nothing has been queued there. -/
structure Unasked (run : List Turn) (i : Nat) (heard : List Frame) : Prop where
  ready : ((least.playAll run).handle? i).map
    (fun found => (least.playAll run).handleState found.1) = some .ready
  told : (least.playAll run).Returns (.first (.trackGroup i "t" 7)) [] .done
  queued : (Journal.ofTurns least (run ++ [.first (.trackGroup i "t" 7)])).queued i =
    [.own (.sync .request ⟨.direct, 0⟩)]
  heard : (Feed.ofTurns i least (run ++ [.first (.trackGroup i "t" 7)])).frames.map (·.decode) =
    heard.map .ok

/-- The server gives notice of a key for a group that the client has not heard of. -/
def noticed (key : UInt8) : List Turn :=
  firsts (introducing ++ [.happen 0 (.arrive
    [0, 0, 0, 16, 0, 0, 0, 2, 33, 2, 0, 0, 0, 0, 0, 0, 0, 0, 0, 7, 0, 0, 0, 0, 0, 0, 0, key]),
    .act (.reading 0)])

/-- Two connections run, and the application asks on the first one to follow a group. -/
def followedBeside : List Turn :=
  firsts (Chronicle.joining 0 ++ Chronicle.joining 1 ++ [.trackGroup 0 "s" 7, .act (.calling 0)])

/-- A group that is known is said to be followed, though no window of it has been opened and the
request for it is not queued: there is nothing to ask for, or the reading side is still to ask, or
another connection has asked. -/
theorem unasked_of_known :
    Unasked (noticed 0) 0 [{ seq := 2, message := .sync .notify ⟨.group 7, 0⟩ }] ∧
      Unasked (noticed 1) 0 [{ seq := 2, message := .sync .notify ⟨.group 7, 1⟩ }] ∧
      Unasked followedBeside 1 [] :=
  ⟨⟨by decide +kernel, .atOnce "t" 0 (by decide +kernel), by decide +kernel, by decide +kernel⟩,
    ⟨by decide +kernel, .atOnce "t" 0 (by decide +kernel), by decide +kernel, by decide +kernel⟩,
    ⟨by decide +kernel, .atOnce "t" 0 (by decide +kernel), by decide +kernel, by decide +kernel⟩⟩

end Client

end Parley
