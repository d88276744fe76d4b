import PoolLb.FramingRun

/-!
# Nothing is spent before the opening line

A session takes a route, a connect attempt or a socket only for a miner that has
sent a whole line which `validate_request` accepts as an opening.  Until then the
line buffer holds everything the miner has sent, so the line is the first of the
stream; and the first accepted line is the only one that leads to
`begin_upstream_connect`.
-/

namespace PoolLb

open Event

variable {json : Glaze} {runtime : RuntimeSnapshot} {c c' : Config}

/-! ## Opening lines -/

/-- The events at the expense of a pool. -/
def Event.spends : Event → Bool
  | .routed | .selected | .attempted _ | .opened _ | .relayed _ _ | .wroteUpstream _ _ => true
  | _ => false

/-- A line that may open a session: it is short enough, and in the state of a
new session it is accepted with a method that is allowed initially. -/
def Opens (json : Glaze) (runtime : RuntimeSnapshot) (line : Bytes) : Prop :=
  line.length ≤ runtime.limits.maxLineBytes ∧ ∃ method name,
    Validator.validateRequest json line {} runtime.protocol = .ok method ∧
      Validator.allowedMethod name runtime.protocol = some method ∧
      Validator.allowedInitialMethod method name runtime.protocol = true

/-- The first complete line of a stream. -/
def FirstLine (stream line : Bytes) : Prop :=
  kNewline ∉ line ∧ line ++ [kNewline] <+: stream

/-- The stream begins with a line that opens a session. -/
def OpenedBy (json : Glaze) (runtime : RuntimeSnapshot) (stream : Bytes) : Prop :=
  ∃ line, FirstLine stream line ∧ Opens json runtime line

/-- What comes later does not change the first line. -/
theorem FirstLine.append {stream line : Bytes} (h : FirstLine stream line) (more : Bytes) :
    FirstLine (stream ++ more) line :=
  ⟨h.1, h.2.trans (List.prefix_append _ _)⟩

/-- Nor that it opens the session. -/
theorem OpenedBy.append {stream : Bytes} (h : OpenedBy json runtime stream) (more : Bytes) :
    OpenedBy json runtime (stream ++ more) := by
  obtain ⟨line, hfirst, hopens⟩ := h
  exact ⟨line, hfirst.append more, hopens⟩

/-- A first line has its newline. -/
theorem FirstLine.mem {stream line : Bytes} (h : FirstLine stream line) : kNewline ∈ stream :=
  h.2.subset (List.mem_append_right _ (List.mem_singleton_self _))

/-- A stream has one first line. -/
theorem FirstLine.unique {stream line line' : Bytes} (h : FirstLine stream line)
    (h' : FirstLine stream line') : line = line' := by
  have hshort {short long : Bytes} (hlong : kNewline ∉ long)
      (hpre : short ++ [kNewline] <+: long ++ [kNewline]) : short = long := by
    rcases List.prefix_concat_iff.mp hpre with heq | hinside
    · exact List.append_cancel_right heq
    · exact absurd (hinside.subset (List.mem_append_right _ (List.mem_singleton_self _))) hlong
  rcases List.prefix_or_prefix_of_prefix h.2 h'.2 with hpre | hpre
  · exact hshort h'.1 hpre
  · exact (hshort h.1 hpre).symm

/-! ## What the log says about them -/

/-- Every expense in the log comes after an opening line. -/
def Paid (json : Glaze) (runtime : RuntimeSnapshot) (log : List Event) : Prop :=
  ∀ event older, event :: older <:+ log → event.spends = true →
    OpenedBy json runtime (gather asFramed older)

/-- One event more, paid for if it is an expense. -/
theorem Paid.cons {event : Event} {log : List Event} (h : Paid json runtime log)
    (hevent : event.spends = true → OpenedBy json runtime (gather asFramed log)) :
    Paid json runtime (event :: log) := by
  intro latest older hsuffix hspends
  rcases List.suffix_cons_iff.mp hsuffix with heq | hsuffix
  · obtain ⟨rfl, rfl⟩ := List.cons.inj heq
    exact hevent hspends
  · exact h latest older hsuffix hspends

/-- One event more that is none. -/
theorem Paid.skip {event : Event} {log : List Event} (h : Paid json runtime log)
    (hevent : event.spends = false) : Paid json runtime (event :: log) :=
  h.cons fun hspends => absurd (hevent.symm.trans hspends) (by decide)

/-- A log without an opening line is a log without expenses. -/
theorem Paid.nothing_spent {log : List Event} (h : Paid json runtime log)
    (hclosed : ¬ OpenedBy json runtime (gather asFramed log)) :
    ∀ event ∈ log, event.spends = false := by
  intro event hmem
  obtain ⟨newer, older, rfl⟩ := List.append_of_mem hmem
  by_contra hspends
  rw [Bool.not_eq_false] at hspends
  have hopened := h event older (List.suffix_append _ _) hspends
  have holder : older <:+ newer ++ event :: older :=
    (List.suffix_cons event older).trans (List.suffix_append _ _)
  obtain ⟨more, hmore⟩ := gather_suffix holder asFramed
  rw [← hmore] at hclosed
  exact hclosed (hopened.append more)

/-- How a session stands to its opening line. -/
structure Opening (json : Glaze) (c : Config) : Prop where
  silent : c.session.protocolState.receivedMessage = false →
    c.session.protocolState = {} ∧ c.consumed = 0 ∧
      c.session.lineBuffer = gather asFramed c.outside.log
  opened : c.session.protocolState.receivedMessage = true →
    OpenedBy json c.session.runtime (gather asFramed c.outside.log)
  paid : Paid json c.session.runtime c.outside.log

/-- The first accepted line is the first line of the stream, and opens it. -/
theorem Opening.accept {newline : Nat} {method : RequestMethod} (h : Opening json c)
    (hline : c.LineAt newline) (hok : c.verdict json newline = .ok method)
    (hfirst : c.session.protocolState.receivedMessage = false) :
    OpenedBy json c.session.runtime (gather asFramed c.outside.log) := by
  obtain ⟨hstate, hmark, hbuffer⟩ := h.silent hfirst
  obtain ⟨hsplit, hnot, hshort⟩ := Config.line_split hline
  obtain ⟨name, hallowed, hinitial⟩ := Validator.validateRequest_initial hok hfirst
  unfold Config.verdict at hok
  rw [hstate] at hok
  rw [hmark, List.drop_zero, hbuffer] at hsplit
  have hpre : c.line newline ++ [kNewline] <+: gather asFramed c.outside.log := by
    refine ⟨(gather asFramed c.outside.log).drop (newline + 1), ?_⟩
    rw [List.append_assoc, List.singleton_append]
    exact hsplit.symm
  exact ⟨c.line newline, ⟨hnot, hpre⟩, hshort, method, name, hok, hallowed, hinitial⟩

/-- A session with a backend has had its first message. -/
theorem Config.Sane.received {others : Nat} (h : c.Sane others) (hstage : c.session.stage.Backed) :
    c.session.protocolState.receivedMessage = true := by
  by_contra hsilent
  exact h.silent_unbacked (Bool.eq_false_of_not_eq_true hsilent) hstage

/-- **A pool is spent on a session only by the moves after its first accepted line.** -/
theorem Move.opening {others : Nat} (hmove : Move json c c') (hsane : c.Sane others)
    (h : Opening json c) : Opening json c' := by
  cases hmove with
  | inert s hs =>
      rw [hs]
      exact ⟨h.silent, h.opened, h.paid⟩
  | note event hevent =>
      rcases hevent with rfl | rfl
      · exact ⟨h.silent, h.opened, h.paid.skip rfl⟩
      · exact ⟨h.silent, h.opened, h.paid.skip rfl⟩
  | receive chunk hphase =>
      refine ⟨fun hsilent => ?_, fun hreceived => (h.opened hreceived).append _, h.paid.skip rfl⟩
      obtain ⟨hstate, hmark, hbuffer⟩ := h.silent hsilent
      exact ⟨hstate, hmark, congrArg (· ++ chunk.bytes) hbuffer⟩
  | acceptLine newline method _ _ _ hlater =>
      refine ⟨fun hsilent => ?_, fun _ => h.opened hlater, h.paid⟩
      simp [Session.acceptLine] at hsilent
  | acceptInitial newline method _ hline hok hfirst =>
      refine ⟨fun hsilent => ?_, fun _ => h.accept hline hok hfirst, h.paid⟩
      simp [Session.acceptLine] at hsilent
  | refuseLine newline error _ _ _ _ hlater =>
      refine ⟨fun hsilent => ?_, h.opened, h.paid.skip rfl⟩
      exact absurd (hlater.symm.trans hsilent) (by decide)
  | commit hpos =>
      refine ⟨fun hsilent => ?_, h.opened, h.paid⟩
      exact absurd (h.silent hsilent).2.1 (by omega)
  | hear | refuseTraffic | strike | oversize | overflow | oversizedTail | overfull | poolBytes
  | poolLost | wrote => exact ⟨h.silent, h.opened, h.paid.skip rfl⟩
  | route backend hphase =>
      have hopened := h.opened (hsane.opening_unbacked (.inl hphase)).2
      exact ⟨h.silent, h.opened, (h.paid.cons fun _ => hopened).cons fun _ => hopened⟩
  | attempt backend hstage =>
      exact ⟨h.silent, h.opened, h.paid.cons fun _ => h.opened (hsane.received (.inl hstage))⟩
  | openSocket socket hstage =>
      exact ⟨h.silent, h.opened, h.paid.cons fun _ => h.opened (hsane.received (.inl hstage))⟩
  | finish socket backend _ hstage =>
      exact ⟨h.silent, h.opened, h.paid.cons fun _ => h.opened (hsane.received (.inl hstage))⟩
  | push socket count hstage =>
      exact ⟨h.silent, h.opened, h.paid.cons fun _ => h.opened (hsane.received (.inr hstage))⟩
  | _ => exact ⟨h.silent, h.opened, h.paid⟩

theorem opening_lawful (json : Glaze) : Lawful json (Opening json) where
  fresh s w hs hlog := by
    have hprotocol := hs.blank.protocolState
    have hbuffer := hs.blank.lineBuffer
    refine ⟨fun _ => ⟨hprotocol, rfl, ?_⟩, fun hreceived => ?_, ?_⟩
    · show s.lineBuffer = gather asFramed w.log
      rw [hlog, hbuffer]
      rfl
    · have hreceived : s.protocolState.receivedMessage = true := hreceived
      rw [hprotocol] at hreceived
      exact absurd hreceived (by decide)
    · intro event older hsuffix
      have hsuffix : event :: older <:+ w.log := hsuffix
      rw [hlog] at hsuffix
      exact absurd (List.suffix_nil.mp hsuffix) (List.cons_ne_nil _ _)
  move _ _ _ hmove hsane h := hmove.opening hsane h
  restart c hresting _ h := ⟨fun hsilent => ⟨(h.silent hsilent).1, rfl, (h.silent hsilent).2.2⟩,
    h.opened, h.paid⟩
  meanwhile s w w' hlog _ h := by
    refine ⟨?_, ?_, ?_⟩
    · show _ → _ ∧ _ ∧ s.lineBuffer = gather asFramed w'.log
      rw [hlog]
      exact h.silent
    · show _ → OpenedBy json s.runtime (gather asFramed w'.log)
      rw [hlog]
      exact h.opened
    · show Paid json s.runtime w'.log
      rw [hlog]
      exact h.paid

/-! ## Stages, routes and budgets -/

/-- Outside of `begin_upstream_connect`, a session that has had its first
message has a backend. -/
theorem backed_lawful (json : Glaze) : Lawful json fun c =>
    c.phase = .idle ∨ c.phase = .reading ∨ c.phase = .scanning →
      c.session.protocolState.receivedMessage = true → c.session.stage.Backed where
  fresh s w hs _ := by
    intro _ hreceived
    have hreceived : s.protocolState.receivedMessage = true := hreceived
    rw [hs.blank.protocolState] at hreceived
    exact absurd hreceived (by decide)
  move others c c' hmove _ h := by
    cases hmove with
    | inert s hs =>
        rw [hs]
        exact h
    | startRead hphase => exact fun _ => h (.inl hphase)
    | endRead hphase => exact fun _ => h (.inr (.inl hphase))
    | receive chunk hphase => exact fun _ => h (.inr (.inl hphase))
    | acceptLine newline method hphase _ _ hlater =>
        exact fun _ _ => h (.inr (.inr hphase)) hlater
    | endScan hphase => exact fun _ => h (.inr (.inr hphase))
    | openConnect => exact fun _ _ => backed_upstreamConnect
    | finish => exact fun _ _ => backed_relay
    | greet hstage =>
        intro hphase hreceived
        have hbacked := h hphase hreceived
        rw [hstage] at hbacked
        exact absurd hbacked not_backed_tlsHandshake
    | refuseTraffic | acceptInitial | strike | oversize | overflow | oversizedTail | overfull
    | route | giveUp | poolLost =>
        intro hphase
        simp [Config.chose] at hphase
    | _ => exact h
  restart c hresting _ h := fun _ => h (.inl hresting.resting.1)
  meanwhile _ _ _ _ _ h := h

/-- At most one route was taken, and none as long as `fresh`. -/
def RoutedOnce (log : List Event) (fresh : Prop) : Prop :=
  log.count .routed ≤ 1 ∧ (fresh → log.count .routed = 0)

theorem RoutedOnce.imp {log : List Event} {fresh fresh' : Prop} (h : RoutedOnce log fresh)
    (himp : fresh' → fresh) : RoutedOnce log fresh' :=
  ⟨h.1, fun hfresh => h.2 (himp hfresh)⟩

/-- Another event takes no route. -/
theorem RoutedOnce.skip {log : List Event} {event : Event} {fresh : Prop}
    (h : RoutedOnce log fresh) (hevent : event ≠ .routed) : RoutedOnce (event :: log) fresh := by
  unfold RoutedOnce
  rw [List.count_cons_of_ne hevent]
  exact h

/-- A fresh session takes one, and is not fresh any more. -/
theorem RoutedOnce.route {log : List Event} {fresh fresh' : Prop} (h : RoutedOnce log fresh)
    (hfresh : fresh) (hlater : ¬ fresh') : RoutedOnce (.routed :: log) fresh' := by
  refine ⟨?_, fun hfresh' => absurd hfresh' hlater⟩
  rw [List.count_cons_self, h.2 hfresh]

/-- No line was accepted yet, or the first one just now. -/
def Config.Unrouted (c : Config) : Prop :=
  c.session.protocolState.receivedMessage = false ∨ c.phase = .opening

/-- **The first accepted line is the only one that takes a route.** -/
theorem Move.routedOnce {others : Nat} (hmove : Move json c c') (hsane : c.Sane others)
    (h : RoutedOnce c.outside.log c.Unrouted) : RoutedOnce c'.outside.log c'.Unrouted := by
  -- a phase other than `opening` is left to the protocol state
  have hleave {phase : Phase} (hphase : phase ≠ .opening)
      (hsilent : c.session.protocolState.receivedMessage = false ∨ phase = .opening) :
      c.Unrouted :=
    .inl (hsilent.resolve_right hphase)
  cases hmove with
  | inert s hs =>
      rw [hs]
      exact h
  | note event hevent =>
      rcases hevent with rfl | rfl
      · exact h.skip (by decide)
      · exact h.skip (by decide)
  | startRead | endRead | endScan | giveUp | openConnect =>
      exact h.imp (hleave Phase.noConfusion)
  | receive | refuseTraffic | strike | oversize | overflow | oversizedTail | overfull | poolLost =>
      exact (h.imp (hleave Phase.noConfusion)).skip Event.noConfusion
  | refuseLine | attempt | openSocket | finish | push | poolBytes | wrote =>
      exact h.skip Event.noConfusion
  | acceptLine newline method hphase =>
      refine h.imp fun hfresh => ?_
      simp [Config.Unrouted, Session.acceptLine, hphase] at hfresh
  | acceptInitial newline method _ _ _ hfirst => exact h.imp fun _ => .inl hfirst
  | route backend hphase =>
      have hreceived := (hsane.opening_unbacked (.inl hphase)).2
      have hlater : ¬ (c.chose backend).Unrouted := by
        simp [Config.Unrouted, Config.chose, hreceived]
      have hrouted : RoutedOnce (.routed :: c.outside.log) (c.chose backend).Unrouted :=
        h.route (.inr hphase) hlater
      exact hrouted.skip Event.noConfusion
  | _ => exact h

/-- A route is taken once, after the first accepted line. -/
theorem routed_lawful (json : Glaze) :
    Lawful json fun c => RoutedOnce c.outside.log c.Unrouted where
  fresh s w _ hlog := by
    show RoutedOnce w.log _
    rw [hlog]
    exact ⟨Nat.zero_le _, fun _ => rfl⟩
  move _ _ _ hmove hsane h := hmove.routedOnce hsane h
  restart c _ _ h := h.imp fun hsilent => .inl (hsilent.resolve_right Phase.noConfusion)
  meanwhile s w w' hlog _ h := by
    show RoutedOnce w'.log _
    rw [hlog]
    exact h

/-- Refused traffic closes the session, and nothing comes after it. -/
theorem Move.overTraffic (hmove : Move json c c')
    (h : Event.overTraffic ∈ c.outside.log → c.phase = .closing .trafficLimit) :
    Event.overTraffic ∈ c'.outside.log → c'.phase = .closing .trafficLimit := by
  have hskip {event : Event} (hevent : Event.overTraffic ≠ event)
      (hmem : Event.overTraffic ∈ event :: c.outside.log) : Event.overTraffic ∈ c.outside.log :=
    (List.mem_cons.mp hmem).resolve_left hevent
  -- no other phase has seen the event
  have hout {phase : Phase} (hphase : c.phase = phase) (hother : phase ≠ .closing .trafficLimit) :
      Event.overTraffic ∉ c.outside.log :=
    fun hmem => hother (hphase.symm.trans (h hmem))
  cases hmove with
  | inert s hs =>
      rw [hs]
      exact h
  | note event hevent =>
      rcases hevent with rfl | rfl
      · exact fun hmem => h (hskip Event.noConfusion hmem)
      · exact fun hmem => h (hskip Event.noConfusion hmem)
  | refuseTraffic => exact fun _ => rfl
  | startRead hphase | endRead hphase | acceptInitial _ _ hphase | endScan hphase
  | openConnect _ hphase =>
      exact fun hmem => absurd hmem (hout hphase Phase.noConfusion)
  | receive _ hphase | strike _ _ _ _ hphase | oversize _ hphase | oversizedTail hphase
  | overfull hphase | poolLost _ hphase =>
      exact fun hmem => absurd (hskip Event.noConfusion hmem) (hout hphase Phase.noConfusion)
  | overflow exit _ hphase =>
      intro hmem
      have hseen := h (hskip Event.noConfusion hmem)
      rcases hphase with ⟨hphase, _⟩ | hphase
      · exact absurd (hphase.symm.trans hseen) Phase.noConfusion
      · exact hphase.symm.trans hseen
  | giveUp exit hphase =>
      intro hmem
      rcases hphase with hphase | hphase
      · exact absurd hmem (hout hphase Phase.noConfusion)
      · exact absurd hmem (hout hphase Phase.noConfusion)
  | route backend hphase =>
      intro hmem
      have hmem := (List.mem_cons.mp hmem).resolve_left Event.noConfusion
      exact absurd (hskip Event.noConfusion hmem) (hout hphase Phase.noConfusion)
  | hear | refuseLine | attempt | openSocket | finish | push | poolBytes | wrote =>
      exact fun hmem => h (hskip Event.noConfusion hmem)
  | _ => exact h

/-- A chunk over the budget ends the session. -/
theorem overTraffic_lawful (json : Glaze) : Lawful json fun c =>
    Event.overTraffic ∈ c.outside.log → c.phase = .closing .trafficLimit where
  fresh s w _ hlog := by
    intro hmem
    have hmem : Event.overTraffic ∈ w.log := hmem
    rw [hlog] at hmem
    exact absurd hmem List.not_mem_nil
  move _ _ _ hmove _ h := hmove.overTraffic h
  restart c hresting _ h := by
    intro hmem
    exact absurd (hresting.resting.1.symm.trans (h hmem)) Phase.noConfusion
  meanwhile s w w' hlog _ h := by
    show Event.overTraffic ∈ w'.log → _
    rw [hlog]
    exact h

/-! ## The opening line claim -/

/-- The first complete line of a live session opens it. -/
theorem Reached.first_line {s : Session} {w : Outside} {line : Bytes} (h : Reached json s w)
    (hline : FirstLine (gather asFramed w.log) line) : Opens json s.runtime line := by
  obtain ⟨hopening, st, hframed⟩ := ((opening_lawful json).and (framed_lawful json)).reached h
  by_cases hreceived : s.protocolState.receivedMessage = true
  · obtain ⟨line', hline', hopens⟩ := hopening.opened hreceived
    rw [hline.unique hline']
    exact hopens
  · obtain ⟨_, _, hbuffer⟩ := hopening.silent (Bool.eq_false_of_not_eq_true hreceived)
    obtain ⟨hnot, _⟩ := hframed.tail (.inl rfl)
    have hbuffer : s.lineBuffer = gather asFramed w.log := hbuffer
    have hnot : kNewline ∉ s.lineBuffer := hnot
    rw [hbuffer] at hnot
    exact absurd hline.mem hnot

/-- **No upstream is spent before a valid opening line.**  A live session is
connecting or relaying exactly if it has accepted a line; its first complete line
is one that opens a session, and none of its chunks was over the traffic budget.
In the log of any session, ended or not, whatever is spent on a pool comes after
a first line that opens a session, and a route is taken at most once; so a session
whose first complete line is refused or oversized, or over the traffic budget,
has ended with nothing spent. -/
theorem no_upstream_before_opening_line (json : Glaze) :
    (∀ s w, Reached json s w →
      (s.stage.Backed ↔ s.protocolState.receivedMessage = true) ∧
      (∀ line, FirstLine (gather asFramed w.log) line → Opens json s.runtime line) ∧
      Event.overTraffic ∉ w.log) ∧
    (∀ s w, Lived json s w →
      (∀ event older, event :: older <:+ w.log → event.spends = true →
        OpenedBy json s.runtime (gather asFramed older)) ∧
      w.log.count .routed ≤ 1 ∧
      (∀ line, FirstLine (gather asFramed w.log) line → ¬ Opens json s.runtime line →
        ∀ event ∈ w.log, event.spends = false) ∧
      (Event.overTraffic ∈ w.log → kNewline ∉ gather asFramed w.log →
        ∀ event ∈ w.log, event.spends = false)) := by
  constructor
  · intro s w hreached
    have hbacked := (backed_lawful json).reached hreached
    have htraffic := (overTraffic_lawful json).reached hreached
    refine ⟨⟨hreached.ordered.sane.received, hbacked (.inl rfl)⟩,
      fun line hline => hreached.first_line hline, fun hmem => ?_⟩
    exact Phase.noConfusion (htraffic hmem)
  · intro s w hlived
    obtain ⟨c, rfl, rfl, hopening, hrouted⟩ :=
      ((opening_lawful json).and (routed_lawful json)).lived hlived
    refine ⟨hopening.paid, hrouted.1, fun line hline hbad => ?_, fun _ hnone => ?_⟩
    · refine hopening.paid.nothing_spent fun hopened => ?_
      obtain ⟨line', hline', hopens⟩ := hopened
      rw [hline.unique hline'] at hbad
      exact hbad hopens
    · refine hopening.paid.nothing_spent fun hopened => ?_
      obtain ⟨line, hline, _⟩ := hopened
      exact hnone hline.mem

/-- A pool whose miners may send one message at once. -/
def oneMessage : RuntimeSnapshot :=
  { onePool false with limits := { messageBurstPerConnection := 1 } }

/-- A miner that opens with two lines in one chunk. -/
def twoLines : Scenario where
  client := Scenario.sends
    [⟨requestText "mining.subscribe" ++ [kNewline, 120, kNewline], by decide +kernel,
      by decide +kernel⟩]

/-- The miner of `twoPieces` after its reaction. -/
def subscribed : (Except Exit Unit × Session) × Outside :=
  twoPieces.react subscribeJson (.client { readable := true }) (plainMiner (onePool false)) {}

/-- A miner that is let through, one whose first line is refused, and one whose
first line comes in a chunk over the budget. -/
theorem no_upstream_before_opening_line_miners :
    (∃ s w, Reached subscribeJson s w ∧ s.stage.Backed ∧ w.log.count .routed ≤ 1 ∧
      ∃ older, .routed :: older <:+ w.log ∧ OpenedBy subscribeJson s.runtime (gather asFramed older)) ∧
    (∃ s w, Stopped subscribeJson .refusedLine s w ∧ FirstLine (gather asFramed w.log) [120] ∧
      ∀ event ∈ w.log, event.spends = false) ∧
    (∃ s w, Stopped subscribeJson .trafficLimit s w ∧ Event.overTraffic ∈ w.log ∧
      ∀ event ∈ w.log, event.spends = false) := by
  have hlives : Reached subscribeJson subscribed.1.2 subscribed.2 := by
    unfold subscribed
    exact twoPieces.react_reached _ (plainMiner_reached (onePool false)) (by decide +kernel)
  have hrefused : Stopped subscribeJson .refusedLine _ _ :=
    badOpening.react_stopped (.client { readable := true }) (plainMiner_reached (onePool false))
      (by decide +kernel)
  have hover : Stopped subscribeJson .trafficLimit _ _ :=
    twoLines.react_stopped (.client { readable := true }) (plainMiner_reached oneMessage)
      (by decide +kernel)
  obtain ⟨hreached, hlived⟩ := no_upstream_before_opening_line subscribeJson
  obtain ⟨hbacked, _, _⟩ := hreached _ _ hlives
  obtain ⟨hpaid, honce, _, _⟩ := hlived _ _ (.inl hlives)
  obtain ⟨_, _, hbad, _⟩ := hlived _ _ (.inr (.inl ⟨_, hrefused⟩))
  obtain ⟨_, _, _, hbudget⟩ := hlived _ _ (.inr (.inl ⟨_, hover⟩))
  have hfirst : FirstLine [120, kNewline] [120] := ⟨by decide, by decide⟩
  have hrouted : Event.routed :: subscribed.2.log.drop 7 <:+ subscribed.2.log := by
    decide +kernel
  refine ⟨⟨_, _, hlives, hbacked.mpr (by decide +kernel), honce, _, hrouted, hpaid _ _ hrouted rfl⟩,
    ⟨_, _, hrefused, hfirst, hbad [120] hfirst fun hopens => ?_⟩,
    ⟨_, _, hover, by decide +kernel, hbudget (by decide +kernel) (by decide +kernel)⟩⟩
  obtain ⟨_, method, name, hok, _⟩ := hopens
  have hnone : some method = none :=
    (congrArg Except.toOption hok).symm.trans (by decide +kernel)
  cases hnone

end PoolLb
