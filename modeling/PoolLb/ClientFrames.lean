import PoolLb.ConnectSteps
import PoolLb.SessionFrames

/-!
# What the work of a session leaves alone

Cutting lines, connecting, writing to the pool, pausing, arming and timing change many
fields of a session, but not what it has for its client: the bytes queued for it, the state
of the TLS stream, and whether either side has closed.  `Session.clientSide` is that part,
and `Spares` says of a piece of code that it keeps it and makes no call on the TLS stream.

What is left are the functions that read the client, write to it, receive from the pool, and
the handshake.
-/

namespace PoolLb

open Interaction Handler

/-- The session is past its handshake. -/
def ClientSide.Past (side : ClientSide) : Prop := side.greeted = true

/-- The handshake is the one stage the client side knows of. -/
theorem Session.past_clientSide {s : Session} : s.clientSide.Past ↔ s.stage ≠ .tlsHandshake :=
  decide_eq_true_iff

/-- A session past its handshake that goes on to another stage. -/
theorem clientSide_restage {s s' : Session} (hpast : s.clientSide.Past)
    (h : s'.clientSide = { s.clientSide with greeted := true }) : s'.clientSide = s.clientSide := by
  have hgreeted : s.clientSide.greeted = true := hpast
  rw [h, ← hgreeted]

variable {G : ClientSide → Prop}

/-! ## Connecting -/

/-- Connecting never calls the TLS stream. -/
theorem ReactorCall.Connects.leavesTls {c : ReactorCall} (h : c.Connects) : c.LeavesTls := by
  cases c with
  | sslAccept session => exact h
  | sslRead session => exact h
  | sslWrite session data => exact h
  | _ => trivial

/-- A session past its handshake stays so while it connects. -/
theorem Session.Dialled.clientSide {s s' : Session} (h : s.Dialled s') (hpast : s.clientSide.Past) :
    s'.clientSide = s.clientSide := by
  have hsame : s'.clientSide = { s.clientSide with greeted := s'.clientSide.greeted } := by
    rw [h.frame]
    rfl
  have hgreeted : s'.clientSide.greeted = true := by
    apply Session.past_clientSide.mpr
    rcases h.stage with hstage | hstage | hstage
    · rw [hstage]
      exact Session.past_clientSide.mp hpast
    · rw [hstage]
      decide
    · rw [hstage]
      decide
  rw [hgreeted] at hsame
  exact clientSide_restage hpast hsame

/-- Code that never stops and leaves a session with the same client side. -/
theorem spares_of_completes {α : Type} {P : ReactorCall → Prop} {m : SessionM α}
    {Q : Session → α → Session → Prop} (h : ∀ s, Completes P s m (Q s))
    (hP : ∀ c, P c → c.Connects)
    (hQ : ∀ s a s', G s.clientSide → Q s a s' → s'.clientSide = s.clientSide) : Spares G m :=
  framed_of_yields (fun s hs => (h s).mono (fun a s' => hQ s a s' hs) fun _ _ h => h.elim)
    fun c hc => (hP c hc).leavesTls

/-- Connecting does not touch the client side. -/
theorem spares_of_dials {m : SessionM Unit} (h : ∀ s, Dials s m) : Spares ClientSide.Past m :=
  framed_of_yields
    (fun s hs => (h s).mono (fun _ _ hend => hend.1.clientSide hs)
      fun _ _ hend => ⟨hend.clientSide hs, trivial⟩)
    fun _ => ReactorCall.Connects.leavesTls

/-- An error at a backend. -/
theorem recordUpstreamError_spares : Spares G recordUpstreamError :=
  spares_of_completes recordUpstreamError_yields (fun _ hc => hc.finishes.adopts.connects)
    fun _ _ _ _ h => h ▸ rfl

/-- The pool socket goes, and with it nothing of the client. -/
theorem discardUpstream_spares : Spares G discardUpstream :=
  spares_of_completes discardUpstream_yields (fun _ hc => hc.finishes.adopts.connects)
    fun _ _ _ _ h => h ▸ rfl

/-- **The step into the relay** keeps the client side of a session that has greeted. -/
theorem finishUpstreamConnect_spares : Spares ClientSide.Past finishUpstreamConnect :=
  spares_of_completes finishUpstreamConnect_yields (fun _ hc => hc.adopts.connects)
    fun _ _ _ hs h => h.dialled.clientSide hs

/-- The candidates, one after the other. -/
theorem startNextUpstreamConnect_spares : Spares ClientSide.Past startNextUpstreamConnect :=
  spares_of_dials startNextUpstreamConnect_dials

/-- The choice of a backend and the first candidates. -/
theorem beginUpstreamConnect_spares : Spares ClientSide.Past beginUpstreamConnect :=
  spares_of_dials beginUpstreamConnect_dials

/-- What is queued for the pool is written before its socket goes. -/
theorem drainUpstream_spares : Spares G drainUpstream :=
  flushUpstreamQueue_forwards.spares.bind fun _ => discardUpstream_spares.bind fun _ =>
    framed_current.bind fun _ => framed_ite (framed_stop trivial) (framed_pure _)

/-- The socket that failed is discarded, and the next one tried. -/
theorem retryUpstreamConnect_spares : Spares ClientSide.Past retryUpstreamConnect :=
  framed_current.bind fun _ => framed_ite (framed_stop trivial) <|
    recordUpstreamError_spares.bind fun _ => discardUpstream_spares.bind fun _ =>
      framed_ask_bind trivial fun _ => framed_ite startNextUpstreamConnect_spares (framed_stop trivial)

/-! ## Lines -/

/-- A bad line ends the session with its client side as it was. -/
theorem commitAndStop_spares (consumed : Nat) (e : Exit) : Spares G (commitAndStop consumed e) :=
  (commitConsumed_forwards consumed).spares.attempt.bind fun _ => framed_stop trivial

/-- By induction on the lines; only past the handshake can a line connect. -/
theorem scanLines_spares (json : Glaze) (rounds consumed : Nat) :
    Spares ClientSide.Past (scanLines json rounds consumed) := by
  induction rounds generalizing consumed with
  | zero => exact framed_pure _
  | succ rounds ih =>
      refine framed_current.bind fun s => ?_
      cases findNewline s.lineBuffer consumed with
      | none => exact framed_pure _
      | some newline =>
          refine framed_ite (framed_ask_bind trivial fun _ => commitAndStop_spares _ _) ?_
          dsimp only
          split
          · exact framed_ask_bind trivial fun _ => framed_ite (commitAndStop_spares _ _) <|
              framed_modify_bind (fun _ => rfl) fun _ => framed_ite (commitAndStop_spares _ _) <|
                (commitConsumed_forwards _).spares.bind fun _ =>
                  (discardLineBytes_forwards _).spares.bind fun _ =>
                  ih 0
          · refine framed_modify_bind (fun _ => rfl) fun _ => framed_ite
              (beginUpstreamConnect_spares.attempt.bind fun outcome => ?_) (ih _)
            cases outcome with
            | error e => exact commitAndStop_spares _ _
            | ok _ => exact ih _

/-- **Cutting lines keeps the client side**, whatever the bytes are. -/
theorem processClientBytes_spares (json : Glaze) (bytes : Bytes) :
    Spares ClientSide.Past (processClientBytes json bytes) :=
  (appendLineBytes_forwards bytes).spares.bind fun _ => framed_current.bind fun _ =>
    (scanLines_spares json _ _).bind fun _ => (commitConsumed_forwards _).spares.bind fun _ =>
      checkQueueSizes_forwards.spares

/-- What becomes of a chunk does not touch the client side. -/
theorem takeChunk_spares (json : Glaze) (chunk : Chunk) (messagesThisEvent : Nat) :
    Spares ClientSide.Past (takeChunk json chunk messagesThisEvent) :=
  framed_ask_bind trivial fun _ => framed_ask_bind trivial fun _ =>
    framed_modify_bind (fun _ => rfl) fun _ => (allowTraffic_forwards _ _ _ _).spares.bind fun _ =>
      framed_ite (processClientBytes_spares json _)
        (framed_ask_bind trivial fun _ => framed_stop trivial)

/-! ## Pausing, arming and timing -/

/-- Arming changes what the sockets are watched for. -/
theorem updateInterests_spares : Spares G updateInterests :=
  refreshReadPause_forwards.spares.bind fun _ =>
    armSockets_rearms.keeps (fun _ _ _ => trivial) (fun _ => rfl) trivial

/-- A timer that fires tries the next candidate or ends the session. -/
theorem expireSession_spares (now : Nat) : Spares ClientSide.Past (expireSession now) :=
  framed_current.bind fun _ => framed_ite (framed_ask trivial) <| framed_ite
    (recordUpstreamError_spares.bind fun _ => discardUpstream_spares.bind fun _ =>
      framed_ite (framed_stop trivial) startNextUpstreamConnect_spares)
    (framed_ite (framed_ask_bind trivial fun _ => framed_stop trivial) (framed_stop trivial))

end PoolLb
