import PoolLb.Books

/-!
# A worker and its sessions

What a worker does is made of few deeds: a session reacts to an event and is stored back, a
session that a reaction has ended is flushed and taken off all the books, the timer wheel moves
on and hands out what is due, a connection becomes a session.  `Deed` lists them, and the
programs of `Reactor` are shown to do nothing else, to meet every demand of the books, and to
leave the books in order.

A worker that works through expired timers has a list of them in hand; `Desk` is the worker
with that list.
-/

namespace PoolLb

open Interaction Handler Tally

variable {json : Glaze} {s s' : Session} {w w' : Outside}

/-! ## Books in order -/

/-- What a session is like whenever its record is in the table. -/
structure Session.Proper (s : Session) : Prop where
  socket_backed : s.upstream.isSome → s.stage.Backed
  backed_backend : s.stage.Backed → s.backend.isSome
  silent_unbacked : s.protocolState.receivedMessage = false → ¬ s.stage.Backed
  plain_reads : s.ssl = false → s.tlsOperation ≠ .read
  counted : s.CountedInRelay

/-- A proper session can be the start of moves. -/
theorem Session.Proper.sane (h : s.Proper) (hheld : s.queuedBytes ≤ w.held) :
    (Config.start s w).Sane (w.held - s.queuedBytes) := by
  refine ⟨?_, h.socket_backed, h.backed_backend, h.silent_unbacked, ?_, h.plain_reads,
    fun hbytes => absurd rfl hbytes, h.counted⟩
  · show w.held = w.held - s.queuedBytes + s.queuedBytes
    omega
  · intro hopening
    simp [Config.start] at hopening

/-- Moves keep a session proper. -/
theorem Config.Sane.proper {others : Nat} {c : Config} (h : c.Sane others) : c.session.Proper :=
  ⟨h.socket_backed, h.backed_backend, h.silent_unbacked, h.plain_reads, h.counted⟩

/-- A new session is proper. -/
theorem Session.Fresh.proper (h : s.Fresh) : s.Proper := by
  have hblank := h.blank
  refine ⟨?_, fun hbacked => absurd hbacked hblank.not_backed, fun _ => hblank.not_backed, ?_, ?_⟩
  · intro hsome
    rw [hblank.upstream] at hsome
    exact absurd hsome (by decide)
  · intro _
    rw [hblank.tlsOperation]
    decide
  · intro hcounted
    rw [hblank.backendCounted] at hcounted
    exact absurd hcounted (by decide)

/-- How many sessions there are. -/
def Outside.live (w : Outside) : Nat := tally (fun _ _ => 1) w.sessions

/-- The books of a worker at rest. -/
structure Outside.Booked (w : Outside) : Prop where
  keyed : ∀ id s, w.sessions.lookup id = some s → s.id = id
  known : ∀ id s, w.sessions.lookup id = some s → id < w.nextId
  leased : ∀ id s, w.sessions.lookup id = some s → s.admission.isSome
  proper : ∀ id s, w.sessions.lookup id = some s → s.Proper
  balanced : ∀ account, w.book account = tally (fun _ s => s.share account) w.sessions
  flow : w.accepted = w.closed + w.live

/-- The session is in the table under its own id. -/
def Outside.Holds (w : Outside) (s : Session) : Prop := w.sessions.lookup s.id = some s

/-- A session is stored back. -/
def Outside.stored (w : Outside) (s : Session) : Outside :=
  { w with sessions := w.sessions.insert s.id s }

/-- What was stored is found. -/
theorem Outside.holds_stored (w : Outside) (s : Session) : (w.stored s).Holds s :=
  AList.lookup_insert _

/-- Every record is under its own id. -/
theorem Outside.Booked.holds {id : Nat} (h : w.Booked) (hfound : w.sessions.lookup id = some s) :
    w.Holds s := by
  unfold Outside.Holds
  rw [h.keyed id s hfound]
  exact hfound

/-- A session has no more of a book than the book has. -/
theorem Outside.Booked.share_le (h : w.Booked) (hs : w.Holds s) (account : Account) :
    s.share account ≤ w.book account := by
  rw [h.balanced account]
  exact le_tally_of_lookup (f := fun _ s => s.share account) hs

/-- So the code of a session may start from there. -/
theorem Outside.Booked.sane (h : w.Booked) (hs : w.Holds s) :
    (Config.start s w).Sane (w.held - s.queuedBytes) :=
  (h.proper s.id s hs).sane (h.share_le hs .queued)

/-- Books that agree entry by entry are in order together. -/
theorem Outside.Booked.congr (h : w.Booked) (hroll : w.SameRoll w') (hheld : w'.held = w.held)
    (hentered : w'.entered = w.entered) : w'.Booked := by
  have hsessions := hroll.sessions
  refine ⟨?_, ?_, ?_, ?_, ?_, ?_⟩
  · rw [hsessions]
    exact h.keyed
  · rw [hsessions, hroll.nextId]
    exact h.known
  · rw [hsessions]
    exact h.leased
  · rw [hsessions]
    exact h.proper
  · intro account
    rw [hsessions, ← h.balanced account]
    cases account with
    | queued => exact hheld
    | slot => exact hroll.slots
    | workerSlot => exact hroll.workerActive
    | lease number => exact congrArg (List.count number) hroll.leases
    | backend ref session => exact congrArg (List.count (ref, session)) hentered
  · unfold Outside.live
    rw [hsessions, hroll.accepted, hroll.closed]
    exact h.flow

/-- **Whatever a reaction was, the books are in order when the session is stored back.** -/
theorem Outside.Booked.reacted {c : Config} (h : w.Booked) (hs : w.Holds s)
    (hmoves : Follows json (.start s w) c) : (c.outside.stored c.session).Booked := by
  have hsane := h.sane hs
  have hid : c.session.id = s.id := hmoves.frame.2.2
  have hroll := hmoves.sameRoll
  have hsessions : c.outside.sessions = w.sessions := hroll.sessions
  have hcases : ∀ id t, (c.outside.stored c.session).sessions.lookup id = some t →
      id = s.id ∧ t = c.session ∨ id ≠ s.id ∧ w.sessions.lookup id = some t := by
    intro id t ht
    rw [← hid, ← hsessions]
    exact lookup_insert_cases ht
  have htally : ∀ f : Session → Nat, tally (fun _ t => f t) (c.outside.stored c.session).sessions =
      f c.session + tally (fun _ t => f t) (w.sessions.erase s.id) := by
    intro f
    show tally _ (c.outside.sessions.insert c.session.id c.session) = _
    rw [tally_insert, hsessions, hid]
  refine ⟨?_, ?_, ?_, ?_, ?_, ?_⟩
  · intro id t ht
    rcases hcases id t ht with ⟨rfl, rfl⟩ | ⟨_, hold⟩
    · exact hid
    · exact h.keyed id t hold
  · intro id t ht
    show id < c.outside.nextId
    rw [hroll.nextId]
    rcases hcases id t ht with ⟨rfl, rfl⟩ | ⟨_, hold⟩
    · exact h.known s.id s hs
    · exact h.known id t hold
  · intro id t ht
    rcases hcases id t ht with ⟨rfl, rfl⟩ | ⟨_, hold⟩
    · rw [hmoves.admission]
      exact h.leased s.id s hs
    · exact h.leased id t hold
  · intro id t ht
    rcases hcases id t ht with ⟨rfl, rfl⟩ | ⟨_, hold⟩
    · exact (hmoves.sane hsane).proper
    · exact h.proper id t hold
  · intro account
    have hbooked : c.outside.book account + s.share account =
        w.book account + c.session.share account := hmoves.booked hsane account
    have hold := h.balanced account
    rw [tally_of_lookup (f := fun _ s => s.share account) hs] at hold
    rw [htally fun t => t.share account]
    show c.outside.book account = _
    omega
  · have hlive : (c.outside.stored c.session).live = w.live := by
      unfold Outside.live
      rw [htally fun _ => 1, tally_of_lookup hs]
    show c.outside.accepted = c.outside.closed + _
    rw [hlive, hroll.accepted, hroll.closed]
    exact h.flow

/-! ## Closing a session -/

/-- The leases without the one of a session. -/
def Session.unleased (s : Session) (leases : List Nat) : List Nat :=
  match s.admission with
  | some lease => leases.erase lease
  | none => leases

/-- The backend connections without the one of a session. -/
def Session.uncounted (s : Session) (entered : List (Nat × Nat)) : List (Nat × Nat) :=
  match s.backendCounted, s.backend with
  | true, some backend => entered.erase (backend.ref, s.id)
  | _, _ => entered

/-- A session is taken off all the books. -/
def Outside.parted (w : Outside) (s : Session) : Outside :=
  { w with
    held := w.held - s.queuedBytes
    slots := w.slots - 1
    workerActive := w.workerActive - 1
    closed := w.closed + 1
    leases := s.unleased w.leases
    entered := s.uncounted w.entered
    sessions := w.sessions.erase s.id
    wheel := w.wheel.cancel s.id }

/-- One lease less, that of the session. -/
theorem Session.count_unleased (s : Session) (leases : List Nat) (number : Nat) :
    (s.unleased leases).count number = leases.count number - s.share (.lease number) := by
  unfold Session.unleased
  show _ = leases.count number - (if s.admission = some number then 1 else 0)
  cases s.admission with
  | none => rfl
  | some lease => simp only [List.count_erase, beq_iff_eq, Option.some.injEq]

/-- One backend connection less, that of the session. -/
theorem Session.count_uncounted (s : Session) (entered : List (Nat × Nat)) (ref session : Nat) :
    (s.uncounted entered).count (ref, session) =
      entered.count (ref, session) - s.share (.backend ref session) := by
  unfold Session.uncounted
  cases hcounted : s.backendCounted with
  | false =>
      rw [Session.share_backend_zero hcounted]
      rfl
  | true =>
      cases hbackend : s.backend with
      | none =>
          have hnot : ¬ s.CountedAt ref session := by
            intro hat
            have hmap := hat.2.2
            rw [hbackend] at hmap
            exact absurd hmap (by simp)
          have hzero : s.share (.backend ref session) = 0 := if_neg hnot
          rw [hzero]
          rfl
      | some backend =>
          have hshare : s.share (.backend ref session) =
              if (backend.ref, s.id) = (ref, session) then 1 else 0 :=
            if_congr (Session.countedAt_iff hcounted hbackend ref session) rfl rfl
          rw [hshare]
          simp only [List.count_erase, beq_iff_eq]

/-- **Parting takes the share of the session out of every book.** -/
theorem Outside.parted_book (w : Outside) (s : Session) (account : Account) :
    (w.parted s).book account = w.book account - s.share account := by
  cases account with
  | queued => rfl
  | slot => rfl
  | workerSlot => rfl
  | lease number => exact s.count_unleased w.leases number
  | backend ref session => exact s.count_uncounted w.entered ref session

/-- A session that is uncounted is not entered at any backend. -/
theorem Outside.Booked.not_entered (h : w.Booked) (hs : w.Holds s) (ref : Nat) :
    (ref, s.id) ∉ s.uncounted w.entered := by
  have hbalanced := h.balanced (.backend ref s.id)
  rw [tally_of_lookup (f := fun _ t => t.share (.backend ref s.id)) hs] at hbalanced
  -- no other session is entered under this id
  have hothers : tally (fun _ t => t.share (.backend ref s.id)) (w.sessions.erase s.id) = 0 := by
    apply tally_eq_zero
    intro id t ht
    have hid : id ≠ s.id := by
      intro heq
      rw [heq, AList.lookup_erase] at ht
      exact absurd ht (by simp)
    rw [AList.lookup_erase_ne hid] at ht
    exact if_neg fun hat => hid ((h.keyed id t ht).symm.trans hat.2.1)
  have hcount := s.count_uncounted w.entered ref s.id
  have hbook : w.entered.count (ref, s.id) = s.share (.backend ref s.id) := by
    rw [hothers] at hbalanced
    exact hbalanced
  rw [hbook, Nat.sub_self] at hcount
  exact List.count_eq_zero.mp hcount

/-- **The books are in order when a session has been closed.** -/
theorem Outside.Booked.parted (h : w.Booked) (hs : w.Holds s) : (w.parted s).Booked := by
  have hkept : ∀ id t, (w.parted s).sessions.lookup id = some t →
      w.sessions.lookup id = some t := by
    intro id t ht
    by_cases hid : id = s.id
    · subst hid
      have hnone : (w.sessions.erase s.id).lookup s.id = none := AList.lookup_erase s.id w.sessions
      exact absurd (hnone.symm.trans ht) (by simp)
    · rw [← AList.lookup_erase_ne hid]
      exact ht
  refine ⟨fun id t ht => h.keyed id t (hkept id t ht), fun id t ht => h.known id t (hkept id t ht),
    fun id t ht => h.leased id t (hkept id t ht), fun id t ht => h.proper id t (hkept id t ht), ?_, ?_⟩
  · intro account
    have hold := h.balanced account
    rw [tally_of_lookup (f := fun _ s => s.share account) hs] at hold
    rw [Outside.parted_book]
    show _ = tally (fun _ s => s.share account) (w.sessions.erase s.id)
    omega
  · have hflow := h.flow
    have hlive : w.live = 1 + tally (fun _ _ => 1) (w.sessions.erase s.id) := tally_of_lookup hs
    show w.accepted = w.closed + 1 + tally (fun _ _ => 1) (w.sessions.erase s.id)
    omega

/-! ## Opening a session -/

/-- A session is entered in all the books. -/
def Outside.opened (w : Outside) (s : Session) (lease : Nat) : Outside :=
  { w with
    slots := w.slots + 1
    workerActive := w.workerActive + 1
    accepted := w.accepted + 1
    leases := lease :: w.leases
    sessions := w.sessions.insert s.id s
    nextId := w.nextId + 1
    wheel := w.wheel.schedule s.id s.timeoutGeneration s.timeoutDeadline }

/-- The next id is that of no session. -/
theorem Outside.Booked.unknown (h : w.Booked) : w.sessions.lookup w.nextId = none := by
  cases hfound : w.sessions.lookup w.nextId with
  | none => rfl
  | some s => exact absurd (h.known w.nextId s hfound) (lt_irrefl _)

/-- A new session has nothing queued. -/
theorem Session.Fresh.share_queued (h : s.Fresh) : s.share .queued = 0 := by
  have hblank := h.blank
  show s.queuedBytes = 0
  unfold Session.queuedBytes
  rw [hblank.lineBuffer, hblank.toUpstream, hblank.toClient]
  rfl

/-- **The books are in order when a connection has become a session.** -/
theorem Outside.Booked.opened {lease : Nat} (h : w.Booked) (hs : s.Fresh) (hid : s.id = w.nextId)
    (hlease : s.admission = some lease) : (w.opened s lease).Booked := by
  have hnone : w.sessions.lookup s.id = none := by
    rw [hid]
    exact h.unknown
  have hcases : ∀ id t, (w.opened s lease).sessions.lookup id = some t →
      id = s.id ∧ t = s ∨ id ≠ s.id ∧ w.sessions.lookup id = some t :=
    fun id t ht => lookup_insert_cases ht
  have htally : ∀ f : Session → Nat, tally (fun _ t => f t) (w.opened s lease).sessions =
      f s + tally (fun _ t => f t) w.sessions := by
    intro f
    show tally _ (w.sessions.insert s.id s) = _
    rw [tally_insert, tally_erase_of_lookup_none hnone]
  refine ⟨?_, ?_, ?_, ?_, ?_, ?_⟩
  · intro id t ht
    rcases hcases id t ht with ⟨rfl, rfl⟩ | ⟨_, hold⟩
    · rfl
    · exact h.keyed id t hold
  · intro id t ht
    show id < w.nextId + 1
    rcases hcases id t ht with ⟨rfl, rfl⟩ | ⟨_, hold⟩
    · omega
    · have := h.known id t hold
      omega
  · intro id t ht
    rcases hcases id t ht with ⟨rfl, rfl⟩ | ⟨_, hold⟩
    · rw [hlease]
      rfl
    · exact h.leased id t hold
  · intro id t ht
    rcases hcases id t ht with ⟨rfl, rfl⟩ | ⟨_, hold⟩
    · exact hs.proper
    · exact h.proper id t hold
  · intro account
    have hold := h.balanced account
    rw [htally fun t => t.share account, ← hold]
    cases account with
    | queued =>
        rw [hs.share_queued, Nat.zero_add]
        rfl
    | slot => exact Nat.add_comm _ _
    | workerSlot => exact Nat.add_comm _ _
    | lease number =>
        show (lease :: w.leases).count number = (if s.admission = some number then 1 else 0) + _
        rw [hlease, List.count_cons, Nat.add_comm]
        simp only [beq_iff_eq, Option.some.injEq]
        rfl
    | backend ref session =>
        rw [Session.share_backend_zero hs.blank.backendCounted, Nat.zero_add]
        rfl
  · have hflow := h.flow
    show w.accepted + 1 = w.closed + tally (fun _ _ => 1) (w.opened s lease).sessions
    rw [htally fun _ => 1]
    show _ = w.closed + (1 + w.live)
    omega

/-! ## Deeds -/

/-- A worker, with the expired timers it still has to look at and the clock reading they are
expired at. -/
structure Desk where
  outside : Outside
  due : List TimerExpiry := []
  time : Nat := 0

/-- Nothing has happened but that time has passed and session ids have been drawn. -/
structure Outside.Idled (w w' : Outside) : Prop where
  slots : w'.slots = w.slots
  workerActive : w'.workerActive = w.workerActive
  accepted : w'.accepted = w.accepted
  closed : w'.closed = w.closed
  leases : w'.leases = w.leases
  sessions : w'.sessions = w.sessions
  held : w'.held = w.held
  entered : w'.entered = w.entered
  wheel : w'.wheel = w.wheel
  nextId : w.nextId ≤ w'.nextId
  clock : w.clock ≤ w'.clock

/-- The expired timer is not for a live session in its present turn. -/
def Outside.Stale (w : Outside) (expiry : TimerExpiry) : Prop :=
  ∀ s, w.sessions.lookup expiry.sessionId = some s → s.timeoutGeneration ≠ expiry.generation

/-- One deed of a worker.  Only timers are looked at while expired ones are in hand. -/
inductive Deed (json : Glaze) : Desk → Desk → Prop where
  | react {w w' : Outside} {s s' : Session} {time : Nat} (event : SessionEvent)
      (hfound : w.Holds s) (hevent : ∀ now, event ≠ .timeout now)
      (hrun : Runs outside w (Session.handle json event s) (.ok (), s') w') :
      Deed json ⟨w, [], time⟩ ⟨w'.stored s', [], time⟩
  | fail {w : Outside} {s : Session} {c d : Config} {time : Nat} (hfound : w.Holds s)
      (hmoves : Follows json (.start s w) d)
      (hlast : Follows json (.start d.session (d.outside.stored d.session)) c) :
      Deed json ⟨w, [], time⟩ ⟨c.outside.parted c.session, [], time⟩
  | close {w : Outside} {s : Session} {c : Config} {time : Nat} (hfound : w.Holds s)
      (hlast : Follows json (.start s w) c) :
      Deed json ⟨w, [], time⟩ ⟨c.outside.parted c.session, [], time⟩
  | advance {w : Outside} {time : Nat} (now : Nat) :
      Deed json ⟨w, [], time⟩
        ⟨{ w with wheel := (w.wheel.advance now).1 }, (w.wheel.advance now).2, now⟩
  | skip {w : Outside} {expiry : TimerExpiry} {due : List TimerExpiry} {time : Nat}
      (hstale : w.Stale expiry) : Deed json ⟨w, expiry :: due, time⟩ ⟨w, due, time⟩
  | expire {w w' : Outside} {s s' : Session} {expiry : TimerExpiry} {due : List TimerExpiry}
      {time : Nat} (hfound : w.Holds s) (hid : expiry.sessionId = s.id)
      (hturn : s.timeoutGeneration = expiry.generation)
      (hrun : Runs outside w (expireSession time s) (.ok (), s') w') :
      Deed json ⟨w, expiry :: due, time⟩ ⟨w'.stored s', due, time⟩
  | lapse {w : Outside} {s : Session} {c d : Config} {expiry : TimerExpiry}
      {due : List TimerExpiry} {time : Nat} (hfound : w.Holds s) (hid : expiry.sessionId = s.id)
      (hlate : s.timeoutDeadline ≤ time) (hmoves : Follows json (.start s w) d)
      (hlast : Follows json (.start d.session (d.outside.stored d.session)) c) :
      Deed json ⟨w, expiry :: due, time⟩ ⟨c.outside.parted c.session, due, time⟩
  | opens {w : Outside} {s : Session} {lease time : Nat} (hs : s.Fresh)
      (hborn : s.lastActivity = w.clock) (hid : s.id = w.nextId)
      (hlease : s.admission = some lease) :
      Deed json ⟨w, [], time⟩ ⟨w.opened s lease, [], time⟩
  | idle {w w' : Outside} {time : Nat} (h : w.Idled w') : Deed json ⟨w, [], time⟩ ⟨w', [], time⟩

/-- Any number of deeds. -/
def Deeds (json : Glaze) : Desk → Desk → Prop := Relation.ReflTransGen (Deed json)

/-- A reaction of a session in the table is made of moves. -/
theorem Outside.Booked.moves {event : SessionEvent} {result : Except Exit Unit} (h : w.Booked)
    (hs : w.Holds s) (hrun : Runs outside w (Session.handle json event s) (result, s') w') :
    ∃ c, Follows json (.start s w) c ∧ c.session = s' ∧ c.outside = w' := by
  have hend := (handle_does event (Config.start_beginning s w) _ (h.sane hs)).sound hrun
  cases result with
  | ok _ =>
      obtain ⟨c, hmoves, hsession, houtside, _⟩ := hend
      exact ⟨c, hmoves, hsession, houtside⟩
  | error e =>
      obtain ⟨c, hmoves, hsession, houtside, _⟩ := hend
      exact ⟨c, hmoves, hsession, houtside⟩

/-- So is a timer that fires. -/
theorem Outside.Booked.expiry_moves (json : Glaze) {now : Nat} {result : Except Exit Unit}
    (h : w.Booked) (hs : w.Holds s) (hrun : Runs outside w (expireSession now s) (result, s') w') :
    ∃ c, Follows json (.start s w) c ∧ c.session = s' ∧ c.outside = w' := by
  have hhandle : Runs outside w (Session.handle json (.timeout now) s) (result, s') w' := hrun
  exact h.moves hs hhandle

/-- To take a stored session off the books is to take off what it was before it was stored. -/
theorem Outside.stored_parted (w : Outside) (s : Session) : (w.stored s).parted s = w.parted s := by
  have herase : (w.sessions.insert s.id s).erase s.id = w.sessions.erase s.id := by
    apply AList.ext
    show List.kerase s.id (List.kinsert s.id s w.sessions.entries) = List.kerase s.id w.sessions.entries
    rw [List.kinsert_def]
    exact List.kerase_cons_eq rfl
  unfold Outside.parted Outside.stored
  rw [herase]

/-- **A session may part after any moves**, and the books are in order. -/
theorem Outside.Booked.farewell {c : Config} (h : w.Booked) (hs : w.Holds s)
    (hmoves : Follows json (.start s w) c) : (c.outside.parted c.session).Booked := by
  have hparted := (h.reacted hs hmoves).parted (Outside.holds_stored c.outside c.session)
  rw [Outside.stored_parted] at hparted
  exact hparted

/-- Time and ids are in no book. -/
theorem Outside.Booked.idled (h : w.Booked) (hidle : w.Idled w') : w'.Booked := by
  have hsame : ({ w with nextId := w'.nextId } : Outside).Booked :=
    ⟨h.keyed, fun id s hs => Nat.lt_of_lt_of_le (h.known id s hs) hidle.nextId, h.leased, h.proper,
      h.balanced, h.flow⟩
  exact hsame.congr ⟨hidle.slots, hidle.workerActive, hidle.accepted, hidle.closed, hidle.leases,
    hidle.sessions, rfl⟩ hidle.held hidle.entered

/-- **Every deed leaves the books in order.** -/
theorem Deed.booked {d d' : Desk} (hdeed : Deed json d d') (h : d.outside.Booked) :
    d'.outside.Booked := by
  cases hdeed with
  | react event hfound _ hrun =>
      obtain ⟨c, hmoves, rfl, rfl⟩ := h.moves hfound hrun
      exact h.reacted hfound hmoves
  | fail hfound hmoves hlast =>
      exact (h.reacted hfound hmoves).farewell (Outside.holds_stored _ _) hlast
  | close hfound hlast => exact h.farewell hfound hlast
  | advance now => exact h.congr ⟨rfl, rfl, rfl, rfl, rfl, rfl, rfl⟩ rfl rfl
  | skip => exact h
  | expire hfound _ _ hrun =>
      obtain ⟨c, hmoves, rfl, rfl⟩ := h.expiry_moves json hfound hrun
      exact h.reacted hfound hmoves
  | lapse hfound _ _ hmoves hlast =>
      exact (h.reacted hfound hmoves).farewell (Outside.holds_stored _ _) hlast
  | opens hs _ hid hlease => exact h.opened hs hid hlease
  | idle hidle => exact h.idled hidle

theorem Deeds.booked {d d' : Desk} (hdeeds : Deeds json d d') (h : d.outside.Booked) :
    d'.outside.Booked := by
  induction hdeeds with
  | refl => exact h
  | tail _ hlast ih => exact hlast.booked ih

/-- **The rule of deeds**: what every deed keeps while the books are in order, any number of
deeds keeps. -/
theorem Deeds.invariant {d d' : Desk} {I : Desk → Prop} (hdeeds : Deeds json d d')
    (h : d.outside.Booked) (hI : I d)
    (hdeed : ∀ d d', Deed json d d' → d.outside.Booked → I d → I d') : I d' := by
  have hboth : d'.outside.Booked ∧ I d' := by
    induction hdeeds with
    | refl => exact ⟨h, hI⟩
    | tail _ hlast ih => exact ⟨hlast.booked ih.1, hdeed _ _ hlast ih.1 ih.2⟩
  exact hboth.2

/-! ## The programs of a worker do deeds -/

/-- The final flush is made of moves of the session. -/
theorem finalFlush_does (json : Glaze) (h : w.Booked) (hs : w.Holds s) :
    Ensures outside w (finalFlush s) (fun s' w' => ∃ c, Follows json (.start s w) c ∧
      c.session = s' ∧ (w' = c.outside.stored c.session ∨ (w' = w ∧ c = .start s w))) := by
  unfold finalFlush
  split
  · rename_i hstage
    have hnot : (Config.start s w).session.stage ≠ .upstreamConnect := by
      show s.stage ≠ .upstreamConnect
      rw [hstage]
      decide
    have hdoes : Does json (Config.start s w) flushUpstreamQueue (fun _ => (Config.start s w).Kept)
        (fun _ _ => False) := flushUpstreamQueue_does hnot
    apply Ensures.bind (hdoes _ (h.sane hs))
    intro outcome w' hend
    obtain ⟨result, s'⟩ := outcome
    cases result with
    | ok _ =>
        obtain ⟨c, hmoves, rfl, rfl, _⟩ := hend
        exact ⟨trivial, fun _ _ => ⟨c, hmoves, rfl, .inl rfl⟩⟩
    | error e =>
        obtain ⟨c, _, _, _, hfalse⟩ := hend
        exact hfalse.elim
  · exact ⟨.start s w, .refl _, rfl, .inr ⟨rfl, rfl⟩⟩

/-- Deregistering a socket is in no book. -/
theorem forgetSocket_ensures (socket : Option Nat) :
    Ensures outside w (forgetSocket socket) (fun _ w' => w' = w) := by
  cases socket with
  | none => rfl
  | some upstream => exact ⟨trivial, fun _ _ => rfl⟩

/-- Nor is closing one. -/
theorem closeUpstreamSocket_ensures (socket : Option Nat) :
    Ensures outside w (closeUpstreamSocket socket) (fun _ w' => w' = w) := by
  cases socket with
  | none => rfl
  | some upstream => exact ⟨trivial, fun _ _ => rfl⟩

/-- The session is taken off its backend, if it was counted. -/
theorem leaveBackend_ensures
    (h : ∀ ref session, s.share (.backend ref session) ≤ w.book (.backend ref session)) :
    Ensures outside w (leaveBackend s)
      (fun _ w' => w' = { w with entered := s.uncounted w.entered }) := by
  unfold leaveBackend Session.uncounted
  cases hcounted : s.backendCounted with
  | false => rfl
  | true =>
      cases hbackend : s.backend with
      | none => rfl
      | some backend =>
          refine ⟨?_, fun _ _ => rfl⟩
          have hat : s.CountedAt backend.ref s.id :=
            (Session.countedAt_iff hcounted hbackend backend.ref s.id).mpr rfl
          have hshare : s.share (.backend backend.ref s.id) = 1 := if_pos hat
          have hle := h backend.ref s.id
          rw [hshare] at hle
          exact List.count_pos_iff.mp hle

/-- The lease and the slot are given back. -/
theorem releaseAdmission_ensures (hlease : s.admission.isSome)
    (hheld : ∀ number, s.share (.lease number) ≤ w.book (.lease number)) (hslots : 0 < w.slots)
    (hworker : 0 < w.workerActive) :
    Ensures outside w (releaseAdmission s) (fun _ w' => w' = { w with
      leases := s.unleased w.leases
      slots := w.slots - 1
      workerActive := w.workerActive - 1 }) := by
  obtain ⟨number, hnumber⟩ := Option.isSome_iff_exists.mp hlease
  have hshare : s.share (.lease number) = 1 := if_pos hnumber
  have hle := hheld number
  rw [hshare] at hle
  have hmem : number ∈ w.leases := List.count_pos_iff.mp hle
  unfold releaseAdmission Session.unleased
  rw [hnumber]
  exact ⟨⟨number, rfl, hmem⟩, fun _ _ => ⟨hslots, fun _ _ => ⟨hworker, fun _ _ => rfl⟩⟩⟩

/-- **`close_session`**: the session is flushed and taken off the books. -/
theorem closeSession_does (json : Glaze) (h : w.Booked) (hs : w.Holds s) :
    Ensures outside w (closeSession s.id) (fun _ w' => ∃ c, Follows json (.start s w) c ∧
      w' = c.outside.parted c.session) := by
  refine ensures_call_bind trivial fun found hfound => ?_
  have hfound : found = some s := hfound.trans hs
  subst hfound
  apply Ensures.bind (finalFlush_does json h hs)
  intro s' w₁ hend
  obtain ⟨c, hmoves, rfl, hw₁⟩ := hend
  have hbooked : w₁.Booked ∧ w₁.Holds c.session ∧
      w₁.parted c.session = c.outside.parted c.session := by
    rcases hw₁ with rfl | ⟨rfl, rfl⟩
    · exact ⟨h.reacted hs hmoves, Outside.holds_stored _ _, Outside.stored_parted _ _⟩
    · exact ⟨h, hs, rfl⟩
  obtain ⟨hb, hh, hparted⟩ := hbooked
  have hid : c.session.id = s.id := hmoves.frame.2.2
  have hshare := hb.share_le hh
  refine ensures_call_bind trivial fun _ _ => ?_
  apply Ensures.bind (forgetSocket_ensures c.session.upstream)
  intro _ w₂ hw₂
  subst hw₂
  apply Ensures.bind (leaveBackend_ensures fun ref session => hshare (.backend ref session))
  intro _ w₂ hw₂
  subst hw₂
  refine ensures_call_bind trivial fun _ _ => ensures_call_bind (hshare .queued) fun _ _ => ?_
  refine Ensures.bind (releaseAdmission_ensures (hb.leased _ _ hh) ?_ ?_ ?_) ?_
  · exact fun number => hshare (.lease number)
  · exact hshare .slot
  · exact hshare .workerSlot
  intro _ w₂ hw₂
  subst hw₂
  have hgone : ∀ ref, (ref, s.id) ∉ c.session.uncounted w₁.entered := by
    rw [← hid]
    exact hb.not_entered hh
  refine ensures_call_bind trivial fun _ _ => ensures_call_bind hgone fun _ _ =>
    ensures_call_bind trivial fun _ _ => ?_
  apply Ensures.mono (closeUpstreamSocket_ensures c.session.upstream)
  intro _ w₂ hw₂
  subst hw₂
  refine ⟨c, hmoves, ?_⟩
  rw [← hparted, ← hid]
  rfl

/-- What a reaction has come to, and that the session is stored back. -/
def Reacted (json : Glaze) (event : SessionEvent) (s : Session) (w : Outside) (keep : Bool)
    (w' : Outside) : Prop :=
  ∃ result s' w₁, Runs outside w (Session.handle json event s) (result, s') w₁ ∧
    w' = w₁.stored s' ∧ (keep = true ↔ result = .ok ())

/-- A reaction, with the record written back. -/
theorem onSession_does (json : Glaze) (event : SessionEvent) (h : w.Booked) (hs : w.Holds s) :
    Ensures outside w (onSession s (Session.handle json event)) (Reacted json event s w) := by
  have hhandle : Does json (.start s w) (Session.handle json event) (fun _ => Config.Beginning)
      (Exit.Reported event.fromPool) := handle_does event (Config.start_beginning s w)
  apply Ensures.bind (Ensures.and_runs (hhandle _ (h.sane hs)))
  intro outcome w₁ hend
  obtain ⟨result, s'⟩ := outcome
  refine ensures_call_bind trivial fun _ _ => ?_
  cases result with
  | ok _ => exact ⟨_, s', w₁, hend.2, rfl, iff_of_true rfl rfl⟩
  | error e => exact ⟨_, s', w₁, hend.2, rfl, iff_of_false nofun nofun⟩

/-- A session that a reaction has ended is closed. -/
theorem closeUnless_does {event : SessionEvent} {keep : Bool} (h : w.Booked) (hs : w.Holds s)
    (hreacted : Reacted json event s w keep w') :
    Ensures outside w' (closeUnless keep s.id) (fun _ w'' =>
      (keep = true ∧ w'' = w') ∨ (keep = false ∧ ∃ c d, Follows json (.start s w) d ∧
        Follows json (.start d.session (d.outside.stored d.session)) c ∧
        w'' = c.outside.parted c.session)) := by
  cases keep with
  | true => exact .inl ⟨rfl, rfl⟩
  | false =>
      obtain ⟨result, s', w₁, hrun, rfl, _⟩ := hreacted
      obtain ⟨d, hmoves, rfl, rfl⟩ := h.moves hs hrun
      have hid : d.session.id = s.id := hmoves.frame.2.2
      show Ensures outside _ (closeSession s.id) _
      rw [← hid]
      apply Ensures.mono (closeSession_does json (h.reacted hs hmoves) (Outside.holds_stored _ _))
      intro _ w'' hend
      obtain ⟨c, hlast, rfl⟩ := hend
      exact .inr ⟨rfl, c, d, hmoves, hlast, rfl⟩

/-- **One socket event is one deed.** -/
theorem dispatchEvent_does (json : Glaze) {time : Nat} (id : Nat) (event : SessionEvent)
    (hevent : ∀ now, event ≠ .timeout now) (h : w.Booked) :
    Ensures outside w (dispatchEvent json id event)
      (fun _ w' => Deeds json ⟨w, [], time⟩ ⟨w', [], time⟩) := by
  refine ensures_call_bind trivial fun found hfound => ?_
  cases found with
  | none => exact .refl
  | some s =>
      have hs : w.Holds s := h.holds hfound.symm
      have hid : s.id = id := h.keyed id s hfound.symm
      subst hid
      apply Ensures.bind (onSession_does json event h hs)
      intro keep w₁ hreacted
      apply Ensures.mono (closeUnless_does h hs hreacted)
      intro _ w' hend
      rcases hend with ⟨hkeep, rfl⟩ | ⟨_, c, d, hmoves, hlast, rfl⟩
      · obtain ⟨result, s', w₁, hrun, rfl, hresult⟩ := hreacted
        rw [hresult.mp hkeep] at hrun
        exact .single (.react event hs hevent hrun)
      · exact .single (.fail hs hmoves hlast)

/-! ## Timers -/

/-- Only a session whose deadline has passed is given up by its timer. -/
theorem expireSession_late {now : Nat} {e : Exit}
    (hrun : Runs outside w (expireSession now s) (.error e, s') w') : s.timeoutDeadline ≤ now := by
  by_contra hearly
  have hleaves : Leaves (fun outcome : Except Exit Unit × Session => outcome.1 = .ok ())
      (expireSession now s) := by
    show Leaves _ ((if now < s.timeoutDeadline then _ else _ : SessionM Unit) s)
    rw [if_pos (Nat.lt_of_not_le hearly)]
    exact fun _ => rfl
  exact nomatch hleaves.sound hrun

/-- **One expired timer is one deed.** -/
theorem expireOne_does (json : Glaze) {due : List TimerExpiry} {expiry : TimerExpiry} (now : Nat)
    (h : w.Booked) :
    Ensures outside w (expireOne now expiry)
      (fun _ w' => Deed json ⟨w, expiry :: due, now⟩ ⟨w', due, now⟩) := by
  refine ensures_call_bind trivial fun found hfound => ?_
  cases found with
  | none =>
      refine .skip fun s hs => ?_
      exact absurd (hfound.trans hs) (by simp)
  | some s =>
      have hs : w.Holds s := h.holds hfound.symm
      have hid : s.id = expiry.sessionId := h.keyed _ s hfound.symm
      dsimp only
      split
      · rename_i hturn
        refine .skip fun t ht => ?_
        have hsame : some s = some t := hfound.trans ht
        rw [← Option.some.inj hsame]
        exact hturn
      · rename_i hturn
        rw [not_not] at hturn
        apply Ensures.bind (onSession_does json (.timeout now) h hs)
        intro keep w₁ hreacted
        rw [← hid]
        apply Ensures.mono (closeUnless_does h hs hreacted)
        intro _ w' hend
        obtain ⟨result, s', w₂, hrun, rfl, hresult⟩ := hreacted
        rcases hend with ⟨hkeep, rfl⟩ | ⟨hkeep, c, d, hmoves, hlast, rfl⟩
        · rw [hresult.mp hkeep] at hrun
          exact .expire hs hid.symm hturn hrun
        · cases result with
          | ok _ => exact absurd (hresult.mpr rfl) (by rw [hkeep]; decide)
          | error e => exact .lapse hs hid.symm (expireSession_late hrun) hmoves hlast

theorem expireEach_does (json : Glaze) {due : List TimerExpiry} (now : Nat) (h : w.Booked) :
    Ensures outside w (expireEach now due)
      (fun _ w' => Deeds json ⟨w, due, now⟩ ⟨w', [], now⟩) := by
  induction due generalizing w with
  | nil => exact .refl
  | cons expiry due ih =>
      apply Ensures.bind (expireOne_does json now h)
      intro _ w₁ hdeed
      apply Ensures.mono (ih (hdeed.booked h))
      intro _ w' hrest
      exact .head hdeed hrest

/-- **`expire_timeouts`.** -/
theorem expireTimeouts_does (json : Glaze) {time : Nat} (now : Nat) (h : w.Booked) :
    Ensures outside w (expireTimeouts now)
      (fun _ w' => Deeds json ⟨w, [], time⟩ ⟨w', [], now⟩) := by
  refine ensures_call_bind trivial fun expired hexpired => ?_
  have hexpired : expired = (w.wheel.advance now).2 := hexpired
  subst hexpired
  have hdeed : Deed json ⟨w, [], time⟩
      ⟨{ w with wheel := (w.wheel.advance now).1 }, (w.wheel.advance now).2, now⟩ := .advance now
  apply Ensures.mono (expireEach_does json now (hdeed.booked h))
  intro _ w' hrest
  exact .head hdeed hrest

/-- The sessions that `shutdown` closes. -/
theorem closeAll_does (json : Glaze) {time : Nat} (rounds : Nat) (h : w.Booked) :
    Ensures outside w (closeAll rounds)
      (fun _ w' => Deeds json ⟨w, [], time⟩ ⟨w', [], time⟩) := by
  induction rounds generalizing w with
  | zero => exact .refl
  | succ rounds ih =>
      refine ensures_call_bind trivial fun any hany => ?_
      cases any with
      | none => exact .refl
      | some id =>
          obtain ⟨s, hfound⟩ := Option.isSome_iff_exists.mp hany
          have hs : w.Holds s := h.holds hfound
          have hid : s.id = id := h.keyed id s hfound
          subst hid
          apply Ensures.bind (closeSession_does json h hs)
          intro _ w₁ hend
          obtain ⟨c, hlast, rfl⟩ := hend
          have hdeed : Deed json ⟨w, [], time⟩ ⟨c.outside.parted c.session, [], time⟩ :=
            .close hs hlast
          apply Ensures.mono (ih (hdeed.booked h))
          intro _ w' hrest
          exact .head hdeed hrest

end PoolLb
