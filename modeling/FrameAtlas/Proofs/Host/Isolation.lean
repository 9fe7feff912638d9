import FrameAtlas.Host.Log
import FrameAtlas.Proofs.Frame.Listing
import FrameAtlas.Proofs.Session.Twin

/-!
What a handle answers depends on the requests that concern it, and on nothing else: a host that is given those
alone answers them in the same way. A request that fails could as well not have been made.
-/

namespace FrameAtlas

theorem HostRequest.handle?_onHandle {r : HostRequest} {h : Nat} (hr : r.handle? = some h) (target : Nat) :
    (r.onHandle target).handle? = some target := by
  cases r with
  | load data => contradiction
  | _ => rfl

/-- A request on a handle is refused for its surface first, and then for its handle. -/
theorem HostRequest.isRefused_iff {r : HostRequest} {h : Nat} (hr : r.handle? = some h) (known : List Nat)
    (message : String) :
    r.IsRefused known message ↔
      (∃ surface, r.badSurface? = some surface ∧ message = Host.unknownSurface surface) ∨
        r.badSurface? = none ∧ h ∉ known ∧ message = Host.invalidHandle := by
  constructor
  · intro hrefused
    cases hrefused with
    | unreadable hdata => contradiction
    | unknownSurface hsurface => exact .inl ⟨_, hsurface, rfl⟩
    | unknownHandle hsurface hasked hunknown =>
      obtain rfl := Option.some.inj (hr.symm.trans hasked)
      exact .inr ⟨hsurface, hunknown, rfl⟩
  · rintro (⟨surface, hsurface, rfl⟩ | ⟨hsurface, hunknown, rfl⟩)
    · exact .unknownSurface hsurface
    · exact .unknownHandle hsurface hr hunknown

theorem HostReply.onHandle_of_none {reply : HostReply} (h : reply.handle? = none) (target : Nat) :
    reply.onHandle target = reply := by
  cases reply with
  | handle k => contradiction
  | _ => rfl

theorem HostTurn.concerns_iff {h : Nat} {turn : HostTurn} :
    turn.concerns h = true ↔ turn.opened? = some h ∨ turn.request.handle? = some h := by
  rw [HostTurn.concerns, Bool.or_eq_true, beq_iff_eq, beq_iff_eq]

namespace Session

def selecting (s : Session Float) (position : Option Nat) : Session Float :=
  position.elim s fun p => (s.select p).session

def answer (s : Session Float) : HostRequest → HostReply × Session Float
  | .load _ => (.failure Host.invalidHandle, s)
  | .analyze _ => (.tree (encode s.analysis), s)
  | .layout _ width focus =>
    let (arrows, s) := s.arrowsFocused (Host.stripViewport width) focus
    (.tree (Host.layoutTree arrows), s)
  | .render _ surface v position => match SurfaceKind.ofName? surface with
    | none => (.failure (Host.unknownSurface surface), s)
    | some kind =>
      let (commands, s) := (s.selecting position).render kind v
      (.tree (encode commands), s)
  | .count _ => (.count s.length, s)

variable {s t : Session Float} {surface : String} {kind : SurfaceKind}

theorem answer_render_of_none (hname : SurfaceKind.ofName? surface = none) (s : Session Float) (h : Nat)
    (v : Viewport Float) (position : Option Nat) :
    s.answer (.render h surface v position) = (.failure (Host.unknownSurface surface), s) := by
  rw [answer, hname]

theorem answer_render_of_some (hname : SurfaceKind.ofName? surface = some kind) (s : Session Float) (h : Nat)
    (v : Viewport Float) (position : Option Nat) : s.answer (.render h surface v position) =
      (.tree (encode ((s.selecting position).render kind v).1), ((s.selecting position).render kind v).2) := by
  rw [answer, hname]

theorem answer_onHandle (s : Session Float) (target : Nat) (r : HostRequest) :
    s.answer (r.onHandle target) = s.answer r := by
  cases r <;> rfl

/-- A session gives out no handle. -/
theorem handle?_answer (s : Session Float) (r : HostRequest) : (s.answer r).1.handle? = none := by
  cases r with
  | render h surface v position =>
    cases hname : SurfaceKind.ofName? surface with
    | none => rw [answer_render_of_none hname]; rfl
    | some kind => rw [answer_render_of_some hname]; rfl
  | _ => rfl

/-- A session fails for the name of a surface alone, before it selects anything. -/
theorem answer_eq_failure_iff {r : HostRequest} {h : Nat} (hr : r.handle? = some h) {message : String} :
    (s.answer r).1 = .failure message ↔
      ∃ surface, r.badSurface? = some surface ∧ message = Host.unknownSurface surface := by
  cases r with
  | load data => contradiction
  | render k surface v position =>
    cases hname : SurfaceKind.ofName? surface with
    | none =>
      rw [answer_render_of_none hname]
      simp [HostRequest.badSurface?, hname, eq_comm]
    | some kind =>
      rw [answer_render_of_some hname]
      simp [HostRequest.badSurface?, hname]
  | _ => simp [answer, HostRequest.badSurface?]

theorem snd_answer_of_failure {r : HostRequest} {h : Nat} (hr : r.handle? = some h) {message : String}
    (hfailed : (s.answer r).1 = .failure message) : (s.answer r).2 = s := by
  obtain ⟨name, hsurface, -⟩ := (answer_eq_failure_iff hr).1 hfailed
  cases r with
  | render k surface v position =>
    cases hname : SurfaceKind.ofName? surface with
    | none => rw [answer_render_of_none hname]
    | some kind => simp [HostRequest.badSurface?, hname] at hsurface
  | _ => contradiction

theorem Twin.selecting (h : s.Twin t) (position : Option Nat) :
    (s.selecting position).Twin (t.selecting position) := by
  cases position with
  | none => exact h
  | some p => exact (h.handle (e := .select p) rfl).2.2

theorem Twin.render (h : s.Twin t) (kind : SurfaceKind) (v : Viewport Float) :
    (t.render kind v).1 = (s.render kind v).1 ∧ (s.render kind v).2.Twin (t.render kind v).2 := by
  obtain ⟨hreply, -, htwin⟩ := h.handle (e := .render kind v) rfl
  exact ⟨SessionReply.commands.inj hreply, htwin⟩

/-- Twins answer alike, and are twins again afterwards. -/
theorem Twin.answer (h : s.Twin t) (r : HostRequest) :
    (t.answer r).1 = (s.answer r).1 ∧ (s.answer r).2.Twin (t.answer r).2 := by
  cases r with
  | load data => exact ⟨rfl, h⟩
  | analyze k => exact ⟨congrArg (fun a => HostReply.tree (encode a)) h.analysis, h⟩
  | count k => exact ⟨congrArg HostReply.count h.length, h⟩
  | layout k width focus =>
    obtain ⟨harrows, htwin⟩ := h.arrowsFocused (Host.stripViewport width) focus
    exact ⟨congrArg (fun a => HostReply.tree (Host.layoutTree a)) harrows, htwin⟩
  | render k surface v position =>
    cases hname : SurfaceKind.ofName? surface with
    | none =>
      rw [answer_render_of_none hname, answer_render_of_none hname]
      exact ⟨rfl, h⟩
    | some kind =>
      rw [answer_render_of_some hname, answer_render_of_some hname]
      obtain ⟨hcommands, htwin⟩ := (h.selecting position).render kind v
      exact ⟨congrArg (fun c => HostReply.tree (encode c)) hcommands, htwin⟩

end Session

namespace Host

variable {host solo : Host} {r : HostRequest} {h : Nat}

/-- A request on a handle is answered by its session, which takes its place again. -/
theorem handle_of_session {s : Session Float} (hr : r.handle? = some h) (hs : host.sessions[h]? = some s) :
    host.handle r = ((s.answer r).1, host.update h (s.answer r).2) := by
  have hkept : host.update h s = host := by
    obtain ⟨hlt, rfl⟩ := List.getElem?_eq_some_iff.1 hs
    rw [update, List.set_getElem_self]
  cases r with
  | load data => contradiction
  | render k surface v position =>
    obtain rfl := Option.some.inj hr
    cases hname : SurfaceKind.ofName? surface with
    | none => rw [Session.answer_render_of_none hname, hkept, Host.handle, hname]
    | some kind =>
      rw [Session.answer_render_of_some hname, Host.handle, hname]
      simp only [hs]
      cases position <;> rfl
  | layout k width focus =>
    obtain rfl := Option.some.inj hr
    simp only [Host.handle, hs, Session.answer]
  | analyze k | count k =>
    obtain rfl := Option.some.inj hr
    simp only [Host.handle, hs, Session.answer, hkept]

def refusal (r : HostRequest) : String := (r.badSurface?.map unknownSurface).getD invalidHandle

theorem refusal_onHandle (target : Nat) (r : HostRequest) : refusal (r.onHandle target) = refusal r := by
  cases r <;> rfl

/-- A handle not given out yet is refused, and the host stays as it was. -/
theorem handle_of_none (hr : r.handle? = some h) (hs : host.sessions[h]? = none) :
    host.handle r = (.failure (refusal r), host) := by
  cases r with
  | load data => contradiction
  | render k surface v position =>
    obtain rfl := Option.some.inj hr
    cases hname : SurfaceKind.ofName? surface with
    | none => simp only [Host.handle, refusal, HostRequest.badSurface?, hname, Option.map_some, Option.getD_some]
    | some kind =>
      simp only [Host.handle, refusal, HostRequest.badSurface?, hname, hs, Option.map_none, Option.getD_none]
  | analyze k | layout k width focus | count k =>
    obtain rfl := Option.some.inj hr
    simp only [Host.handle, hs]
    rfl

/-- A list that can be read opens a session behind all others, and its handle is the number of those. -/
theorem handle_load {data : ByteArray} {frames : List Frame} (hread : loadFrames data = .ok frames) (host : Host) :
    host.handle (.load data) = (.handle host.sessions.length,
      ⟨host.sessions ++ [Session.ofSnapshot ⟨host.sessions.length + 1, frames⟩]⟩) := by
  rw [Host.handle, hread]
  rfl

/-- All that a host does with a request: it opens a session, it leaves everything as it is and fails, or one of
its sessions answers. -/
theorem handle_cases (host : Host) (r : HostRequest) :
    (∃ data frames, r = .load data ∧ loadFrames data = .ok frames ∧ host.handle r =
      (.handle host.sessions.length,
        ⟨host.sessions ++ [Session.ofSnapshot ⟨host.sessions.length + 1, frames⟩]⟩)) ∨
    (∃ data e, r = .load data ∧ loadFrames data = .error e ∧ host.handle r = (.failure e.message, host)) ∨
    (∃ h, r.handle? = some h ∧ host.sessions[h]? = none ∧ host.handle r = (.failure (refusal r), host)) ∨
    (∃ h s, r.handle? = some h ∧ host.sessions[h]? = some s ∧
      host.handle r = ((s.answer r).1, host.update h (s.answer r).2)) := by
  cases hr : r.handle? with
  | some h =>
    cases hs : host.sessions[h]? with
    | none => exact .inr (.inr (.inl ⟨h, rfl, hs, handle_of_none hr hs⟩))
    | some s => exact .inr (.inr (.inr ⟨h, s, rfl, hs, handle_of_session hr hs⟩))
  | none =>
    cases r with
    | load data =>
      cases hdata : loadFrames data with
      | error e => exact .inr (.inl ⟨data, e, rfl, hdata, by rw [Host.handle, hdata]⟩)
      | ok frames => exact .inl ⟨data, frames, rfl, hdata, handle_load hdata host⟩
    | _ => contradiction

/-- A request that fails leaves the host as it was. -/
theorem snd_handle_of_failure {message : String} (hfailed : (host.handle r).1 = .failure message) :
    (host.handle r).2 = host := by
  rcases host.handle_cases r with ⟨data, frames, -, -, hhandle⟩ | ⟨_, _, -, -, hhandle⟩ | ⟨-, -, -, hhandle⟩ |
      ⟨h, s, hr, hs, hhandle⟩
  · rw [hhandle] at hfailed
    contradiction
  · rw [hhandle]
  · rw [hhandle]
  · rw [hhandle] at hfailed ⊢
    obtain ⟨hlt, rfl⟩ := List.getElem?_eq_some_iff.1 hs
    rw [Session.snd_answer_of_failure hr hfailed, update, List.set_getElem_self]

theorem length_update (host : Host) (h : Nat) (s : Session Float) :
    (host.update h s).sessions.length = host.sessions.length := List.length_set

/-- A turn opens the next handle, or none. -/
theorem opened?_turn (host : Host) (r : HostRequest) :
    let turn : HostTurn := ⟨r, (host.handle r).1⟩
    turn.opened? = some host.sessions.length ∧
        (host.handle r).2.sessions.length = host.sessions.length + 1 ∨
      turn.opened? = none ∧ (host.handle r).2.sessions.length = host.sessions.length := by
  rcases host.handle_cases r with ⟨data, frames, -, -, hhandle⟩ | ⟨_, _, -, -, hhandle⟩ | ⟨-, -, -, hhandle⟩ |
      ⟨h, s, hr, hs, hhandle⟩
  · rw [hhandle]
    exact .inl ⟨rfl, List.length_append⟩
  · rw [hhandle]
    exact .inr ⟨rfl, rfl⟩
  · rw [hhandle]
    exact .inr ⟨rfl, rfl⟩
  · rw [hhandle]
    exact .inr ⟨s.handle?_answer r, length_update host h _⟩

/-- The handles of a run are counted on from those there are. -/
theorem opened_log (host : Host) (requests : List HostRequest) :
    host.sessions.length ≤ (host.after requests).sessions.length ∧
      (host.log requests).filterMap HostTurn.opened? =
        List.range' host.sessions.length ((host.after requests).sessions.length - host.sessions.length) := by
  induction requests generalizing host with
  | nil => simp
  | cons r rest ih =>
    obtain ⟨hle, hrest⟩ := ih (host.handle r).2
    rw [after_cons, log_cons]
    rcases host.opened?_turn r with ⟨hopened, hlength⟩ | ⟨hopened, hlength⟩
    · rw [hlength] at hle hrest
      refine ⟨by omega, ?_⟩
      rw [List.filterMap_cons_some hopened, hrest, ← List.range'_succ]
      congr 1
      omega
    · rw [hlength] at hle hrest
      refine ⟨hle, ?_⟩
      rw [List.filterMap_cons_none hopened, hrest]

theorem mem_opened_log_iff (requests : List HostRequest) (h : Nat) :
    h ∈ (empty.log requests).filterMap HostTurn.opened? ↔ h < (empty.after requests).sessions.length := by
  obtain ⟨-, hopened⟩ := empty.opened_log requests
  rw [hopened, List.mem_range'_1]
  show 0 ≤ h ∧ h < 0 + (_ - 0) ↔ _
  omega

/-- A request fails where it cannot be met, and nowhere else, and says why. -/
theorem handle_eq_failure_iff {known : List Nat} (hknown : ∀ h, h ∈ known ↔ h < host.sessions.length)
    (r : HostRequest) (message : String) : (host.handle r).1 = .failure message ↔ r.IsRefused known message := by
  rcases host.handle_cases r with ⟨data, frames, rfl, hdata, hhandle⟩ | ⟨data, e, rfl, hdata, hhandle⟩ |
      ⟨h, hr, hnone, hhandle⟩ | ⟨h, s, hr, hs, hhandle⟩
  · rw [hhandle]
    constructor
    · intro hfailed
      contradiction
    · intro hrefused
      cases hrefused with
      | unreadable herror =>
        rw [hdata] at herror
        contradiction
      | unknownSurface hsurface => contradiction
      | unknownHandle _ hr _ => contradiction
  · rw [hhandle]
    constructor
    · intro hfailed
      rw [← HostReply.failure.inj hfailed]
      exact .unreadable hdata
    · intro hrefused
      cases hrefused with
      | unreadable herror => rw [Except.error.inj (hdata.symm.trans herror)]
      | unknownSurface hsurface => contradiction
      | unknownHandle _ hr _ => contradiction
  · have hunknown : h ∉ known := by
      rw [hknown, Nat.not_lt]
      exact List.getElem?_eq_none_iff.1 hnone
    rw [hhandle, HostRequest.isRefused_iff hr, refusal]
    cases r.badSurface? with
    | none => simp [hunknown, eq_comm]
    | some surface => simp [eq_comm]
  · have hheld : h ∈ known := (hknown h).2 (List.getElem?_eq_some_iff.1 hs).1
    rw [hhandle, HostRequest.isRefused_iff hr, Session.answer_eq_failure_iff hr, or_iff_left fun hrefused =>
      hrefused.2.1 hheld]

/-- A host beside one that is given only what concerns one handle. Until the handle is opened the other host is
empty; from then on it holds a twin of the session. -/
inductive Solo (h : Nat) (host : Host) : Host → Prop
  | before (hnone : host.sessions.length ≤ h) : Solo h host empty
  | opened {s t : Session Float} (hs : host.sessions[h]? = some s) (htwin : s.Twin t) : Solo h host ⟨[t]⟩

/-- What does not concern the handle passes by its session. -/
theorem Solo.handle_of_other (hsolo : Solo h host solo)
    (hother : HostTurn.concerns h ⟨r, (host.handle r).1⟩ = false) : Solo h (host.handle r).2 solo := by
  have hnot : ¬ HostTurn.concerns h ⟨r, (host.handle r).1⟩ = true := Bool.eq_false_iff.1 hother
  rw [HostTurn.concerns_iff, not_or] at hnot
  obtain ⟨hopens, hasks⟩ := hnot
  rcases host.handle_cases r with ⟨data, frames, rfl, -, hhandle⟩ | ⟨_, _, -, -, hhandle⟩ | ⟨-, -, -, hhandle⟩ |
      ⟨k, s, hr, -, hhandle⟩
  · rw [hhandle] at hopens ⊢
    have hne : host.sessions.length ≠ h := fun hsame => hopens (congrArg some hsame)
    cases hsolo with
    | before hnone =>
      apply Solo.before
      rw [List.length_append, List.length_singleton]
      omega
    | opened hs htwin =>
      have hlt := (List.getElem?_eq_some_iff.1 hs).1
      exact .opened ((List.getElem?_append_left hlt).trans hs) htwin
  · rwa [hhandle]
  · rwa [hhandle]
  · rw [hhandle]
    have hne : k ≠ h := fun hsame => hasks (hr.trans (congrArg some hsame))
    cases hsolo with
    | before hnone => exact .before ((length_update host k _).trans_le hnone)
    | opened hs htwin => exact .opened ((List.getElem?_set_ne hne).trans hs) htwin

/-- The request that opens the handle is the first one for the other host. -/
theorem Solo.handle_load (hsolo : Solo host.sessions.length host solo) {data : ByteArray} {frames : List Frame}
    (hread : loadFrames data = .ok frames) :
    (solo.handle (.load data)).1 = .handle 0 ∧
      Solo host.sessions.length (host.handle (.load data)).2 (solo.handle (.load data)).2 := by
  cases hsolo with
  | opened hs htwin => exact absurd (List.getElem?_eq_some_iff.1 hs).1 (Nat.lt_irrefl _)
  | before hnone =>
    rw [Host.handle_load hread, Host.handle_load hread]
    refine ⟨rfl, .opened List.getElem?_concat_length ?_⟩
    exact Session.twin_ofSnapshot (Nat.succ_ne_zero _) Nat.one_ne_zero frames

/-- Both sessions are asked, and twins answer alike. -/
theorem Solo.handle_of_session (hsolo : Solo h host solo) {s : Session Float} (hr : r.handle? = some h)
    (hs : host.sessions[h]? = some s) :
    (solo.handle (r.onHandle 0)).1 = (s.answer r).1 ∧
      Solo h (host.update h (s.answer r).2) (solo.handle (r.onHandle 0)).2 := by
  have hlt := (List.getElem?_eq_some_iff.1 hs).1
  cases hsolo with
  | before hnone => exact absurd hlt (Nat.not_lt.2 hnone)
  | opened hheld htwin =>
    rename_i held t
    obtain rfl : s = held := Option.some.inj (hs.symm.trans hheld)
    obtain ⟨hanswer, hnext⟩ := htwin.answer r
    have hsolo : (⟨[t]⟩ : Host).sessions[0]? = some t := rfl
    rw [Host.handle_of_session (HostRequest.handle?_onHandle hr 0) hsolo, Session.answer_onHandle]
    exact ⟨hanswer, .opened (List.getElem?_set_self hlt) hnext⟩

/-- What concerns the handle is answered in the same way by both. -/
theorem Solo.handle_of_own (hsolo : Solo h host solo)
    (hown : HostTurn.concerns h ⟨r, (host.handle r).1⟩ = true) :
    (solo.handle (r.onHandle 0)).1 = (host.handle r).1.onHandle 0 ∧
      Solo h (host.handle r).2 (solo.handle (r.onHandle 0)).2 := by
  rw [HostTurn.concerns_iff] at hown
  rcases host.handle_cases r with ⟨data, frames, rfl, hread, hhandle⟩ | ⟨data, e, rfl, hdata, hhandle⟩ |
      ⟨k, hr, hnone, hhandle⟩ | ⟨k, s, hr, hs, hhandle⟩
  · obtain rfl : host.sessions.length = h := by
      rw [hhandle] at hown
      rcases hown with hopens | hasks
      · exact Option.some.inj hopens
      · contradiction
    obtain ⟨hreply, hnext⟩ := hsolo.handle_load hread
    refine ⟨hreply.trans ?_, hnext⟩
    rw [hhandle]
    rfl
  · rw [hhandle] at hown
    rcases hown with hopens | hasks <;> contradiction
  · rw [hhandle] at hown ⊢
    obtain rfl : k = h := by
      rcases hown with hopens | hasks
      · contradiction
      · exact Option.some.inj (hr.symm.trans hasks)
    cases hsolo with
    | before hlength =>
      rw [handle_of_none (HostRequest.handle?_onHandle hr 0) rfl, refusal_onHandle]
      exact ⟨rfl, .before hlength⟩
    | opened hs htwin =>
      rw [hnone] at hs
      contradiction
  · rw [hhandle] at hown ⊢
    have hreply := s.handle?_answer r
    obtain rfl : k = h := by
      rcases hown with hopens | hasks
      · exact absurd (hopens.symm.trans hreply) (Option.some_ne_none _)
      · exact Option.some.inj (hr.symm.trans hasks)
    rw [HostReply.onHandle_of_none hreply]
    exact hsolo.handle_of_session hr hs

/-- In a whole run the handle is answered as by a host of its own. -/
theorem Solo.log (hsolo : Solo h host solo) (requests : List HostRequest) :
    let own := (host.log requests).filter (HostTurn.concerns h)
    solo.log (own.map fun turn => turn.request.onHandle 0) = own.map (HostTurn.onHandle 0) := by
  induction requests generalizing host solo with
  | nil => rfl
  | cons r rest ih =>
    rw [log_cons]
    cases hconcerns : HostTurn.concerns h ⟨r, (host.handle r).1⟩ with
    | false =>
      rw [List.filter_cons_of_neg (by simp [hconcerns])]
      exact ih (hsolo.handle_of_other hconcerns)
    | true =>
      obtain ⟨hreply, hnext⟩ := hsolo.handle_of_own hconcerns
      simp only [List.filter_cons_of_pos hconcerns, List.map_cons, log_cons, hreply]
      exact congrArg (List.cons _) (ih hnext)

theorem log_take (host : Host) (requests : List HostRequest) (i : Nat) :
    (host.log requests).take i = host.log (requests.take i) := by
  induction requests generalizing host i with
  | nil => rw [List.take_nil, log_nil, List.take_nil]
  | cons r rest ih =>
    cases i with
    | zero => rfl
    | succ i => exact congrArg (List.cons _) (ih _ i)

/-- A turn is a request and what the host answers after all the requests before it. -/
theorem exists_of_getElem?_log {turn : HostTurn} {requests : List HostRequest} {i : Nat}
    (hturn : (host.log requests)[i]? = some turn) :
    ∃ r, turn = ⟨r, ((host.after (requests.take i)).handle r).1⟩ := by
  induction requests generalizing host i with
  | nil => contradiction
  | cons r rest ih =>
    cases i with
    | zero => exact ⟨r, (Option.some.inj hturn).symm⟩
    | succ i => exact ih hturn

/-- Without a request that failed, the rest of the run is the same. -/
theorem log_eraseIdx {turn : HostTurn} {requests : List HostRequest} {i : Nat}
    (hturn : (host.log requests)[i]? = some turn) {message : String} (hfailed : turn.reply = .failure message) :
    host.log (requests.eraseIdx i) = (host.log requests).eraseIdx i ∧
      host.after (requests.eraseIdx i) = host.after requests := by
  induction requests generalizing host i with
  | nil => contradiction
  | cons r rest ih =>
    cases i with
    | zero =>
      obtain rfl := Option.some.inj hturn
      have hsame : (host.handle r).2 = host := snd_handle_of_failure hfailed
      rw [log_cons, after_cons, hsame]
      exact ⟨rfl, rfl⟩
    | succ i =>
      obtain ⟨hlog, hafter⟩ := ih hturn
      exact ⟨congrArg (List.cons _) hlog, hafter⟩

/-- A handle is opened by a list that can be read, and by nothing else. -/
theorem opened?_ne_none_iff (host : Host) (r : HostRequest) :
    HostTurn.opened? ⟨r, (host.handle r).1⟩ ≠ none ↔
      ∃ data frames, r = .load data ∧ loadFrames data = .ok frames := by
  rcases host.handle_cases r with ⟨data, frames, rfl, hdata, hhandle⟩ | ⟨data, e, rfl, hdata, hhandle⟩ |
      ⟨h, hr, -, hhandle⟩ | ⟨h, s, hr, -, hhandle⟩
  · rw [hhandle]
    exact ⟨fun _ => ⟨data, frames, rfl, hdata⟩, fun _ => Option.some_ne_none _⟩
  · rw [hhandle]
    refine ⟨fun hopened => absurd rfl hopened, ?_⟩
    rintro ⟨_, frames, hsame, hread⟩
    cases hsame
    rw [hdata] at hread
    contradiction
  · refine ⟨fun hopened => absurd (by rw [hhandle]; rfl) hopened, ?_⟩
    rintro ⟨data, -, rfl, -⟩
    contradiction
  · refine ⟨fun hopened => absurd (by rw [hhandle]; exact s.handle?_answer r) hopened, ?_⟩
    rintro ⟨data, -, rfl, -⟩
    contradiction

/-- Handles are isolated from each other, and failures leave no trace. In every run a list that can be read opens a
handle never given out before; what is answered on a handle is answered by a host that hears of this handle alone,
where it is the first; and a request fails for data that cannot be read, a handle not given out yet or a surface
that does not exist, and says which, in which case all other answers and all sessions are as they would be without
it. -/
theorem handles_isolated (requests : List HostRequest) :
    let log := empty.log requests
    (log.filterMap HostTurn.opened?).Nodup ∧
      (∀ turn ∈ log, turn.opened? ≠ none ↔
        ∃ data frames, turn.request = .load data ∧ loadFrames data = .ok frames) ∧
      (∀ h, let own := log.filter (HostTurn.concerns h)
        empty.log (own.map fun turn => turn.request.onHandle 0) = own.map (HostTurn.onHandle 0)) ∧
      ∀ i turn, log[i]? = some turn → ∀ message,
        (turn.reply = .failure message ↔
            turn.request.IsRefused ((log.take i).filterMap HostTurn.opened?) message) ∧
          (turn.reply = .failure message → empty.log (requests.eraseIdx i) = log.eraseIdx i ∧
            empty.after (requests.eraseIdx i) = empty.after requests) := by
  intro log
  refine ⟨?fresh, ?opened, ?isolated, ?failures⟩
  case fresh =>
    rw [(empty.opened_log requests).2]
    exact List.nodup_range'
  case opened =>
    intro turn hmem
    obtain ⟨i, hturn⟩ := List.mem_iff_getElem?.1 hmem
    obtain ⟨r, rfl⟩ := exists_of_getElem?_log hturn
    exact opened?_ne_none_iff _ r
  case isolated =>
    intro h
    exact (Solo.before (Nat.zero_le h)).log requests
  case failures =>
    intro i turn hturn message
    refine ⟨?_, log_eraseIdx hturn⟩
    obtain ⟨r, rfl⟩ := exists_of_getElem?_log hturn
    rw [log_take]
    exact handle_eq_failure_iff (mem_opened_log_iff (requests.take i)) r message

/-- Two handles on one list; a surface that does not exist, asked for with a position. -/
theorem handles_isolated_beside_failure :
    let frames : List Frame := [{ index := 4, refs := [9, 0] }, { index := 2, refs := [4] }]
    let data : ByteArray := (encode frames).render.toUTF8
    let v : Viewport Float := .sized 200 60
    let requests : List HostRequest := [.load data, .load data, .render 1 "timeline" v (some 1),
      .render 1 "nowhere" v (some 0), .layout 0 200 (some 4), .count 1]
    let log := empty.log requests
    let own := log.filter (HostTurn.concerns 1)
    log[1]? = some ⟨.load data, .handle 1⟩ ∧
      log[3]? = some ⟨.render 1 "nowhere" v (some 0), .failure "unknown surface: nowhere"⟩ ∧
      empty.log (own.map fun turn => turn.request.onHandle 0) = own.map (HostTurn.onHandle 0) ∧
      empty.log (requests.eraseIdx 3) = log.eraseIdx 3 ∧
      empty.after (requests.eraseIdx 3) = empty.after requests := by
  intro frames data v requests log own
  obtain ⟨-, -, hisolated, hfailures⟩ := handles_isolated requests
  have hread : loadFrames data = .ok frames := loadFrames_list frames
  have hsecond : log[1]? = some ⟨.load data, .handle 1⟩ := by
    show some (⟨.load data, ((empty.handle (.load data)).2.handle (.load data)).1⟩ : HostTurn) = _
    rw [handle_load hread, handle_load hread]
    rfl
  have hnowhere : log[3]? = some ⟨.render 1 "nowhere" v (some 0), .failure "unknown surface: nowhere"⟩ := rfl
  obtain ⟨hlog, hafter⟩ := (hfailures 3 _ hnowhere _).2 rfl
  exact ⟨hsecond, hnowhere, hisolated 1, hlog, hafter⟩

end Host

end FrameAtlas
