import PoolLb.HealthMonitor

/-!
# Probes and segments

A response comes in pieces: `recv` gives some of what is left of it, at least one byte
and at most what it was asked for, and the end when nothing is left.  The probe of a
backend looks at all it has received, so how the response was cut does not matter to
it.  The probe of the container looks at the first piece only; that makes no difference
if the response does not have the beginning that is looked for, or the piece holds it.
-/

namespace PoolLb

open Interaction

namespace Health

/-- The rest of a response, how often the kernel may still ask to come back later, and the
pieces that were received. -/
structure Peer where
  rest : Bytes
  pauses : Nat := 0
  pieces : List Bytes := []

/-- The first piece, or nothing if there was none. -/
def Peer.first (w : Peer) : Bytes := w.pieces.headD []

/-- A peer that answers and then closes, without timeouts and errors from `clock` on.  The
response comes in any pieces. -/
def responding (clock : Nat) : World probeCalls Peer where
  requires _ _ := True
  allows w c := match c with
    | .now => fun time : Nat => clock ≤ time ∧ time < clock + kHealthCheckTimeout
    | .stopRequested => fun stop => stop = false
    | .connectTcp _ _ => fun connected => connected = true
    | .waitFd _ _ => fun ready => ready = true
    | .send bytes => fun result =>
        match result with
        | .sent count => count ≤ bytes.length ∧ (bytes ≠ [] → 0 < count)
        | .retry => 0 < w.pauses
        | .failed => False
    | .recv capacity => fun result =>
        match result with
        | .received bytes => (0 < capacity → bytes ≠ []) ∧ bytes.length ≤ capacity ∧
            bytes <+: w.rest
        | .closed => w.rest = []
        | .again | .interrupted => 0 < w.pauses
        | .failed => False
  after w c := match c with
    | .send _ => fun result =>
        match result with
        | .retry => { w with pauses := w.pauses - 1 }
        | _ => w
    | .recv _ => fun result =>
        match result with
        | .received bytes =>
            { w with rest := w.rest.drop bytes.length, pieces := w.pieces ++ [bytes] }
        | .again | .interrupted => { w with pauses := w.pauses - 1 }
        | _ => w
    | _ => fun _ => w

/-! ## The verdict on a response -/

/-- The first line ends early enough and says that all is well. -/
def HealthyResponse (response : Bytes) : Prop :=
  ∃ lineEnd ≤ kMaximumStatusLineBytes, kCrlf <+: response.drop lineEnd ∧
    (∀ earlier < lineEnd, ¬ kCrlf <+: response.drop earlier) ∧
    (ascii "HTTP/1.1 200 " <+: response.take lineEnd ∨
      ascii "HTTP/1.0 200 " <+: response.take lineEnd)

/-- The end of a line is not empty. -/
theorem kCrlf_ne_nil : kCrlf ≠ [] := by decide

/-- A status read from a beginning of the response is the verdict on all of it. -/
theorem healthyStatus_eq_some {response : Bytes} {status : Bool}
    (h : healthyStatus response = some status) (hfits : response.length ≤ kResponseBytes)
    (more : Bytes) : status = true ↔ HealthyResponse (response ++ more) := by
  unfold healthyStatus at h
  split at h
  · cases h
  · rename_i lineEnd hfind
    have hstatus := Option.some.inj h
    obtain ⟨hhere, _⟩ := Text.findWord_spec hfind
    have hinside : lineEnd + 2 ≤ response.length :=
      Text.add_length_le_of_prefix kCrlf_ne_nil hhere
    obtain ⟨hcrlf, hfirst⟩ := Text.findWord_spec (Text.findWord_append kCrlf_ne_nil hfind more)
    have hline : (response ++ more).take lineEnd = response.take lineEnd :=
      List.take_append_of_le_length (by omega)
    have hmost : lineEnd ≤ kMaximumStatusLineBytes := by
      unfold kResponseBytes kStatusLineTerminatorBytes at hfits
      omega
    rw [← hstatus, Bool.or_eq_true, List.isPrefixOf_iff_prefix, List.isPrefixOf_iff_prefix]
    constructor
    · intro hprefix
      refine ⟨lineEnd, hmost, hcrlf, hfirst, ?_⟩
      rw [hline]
      exact hprefix
    · intro hhealthy
      obtain ⟨place, _, hplace, hearlier, hprefix⟩ := hhealthy
      have hsame : place = lineEnd := by
        rcases Nat.lt_trichotomy place lineEnd with hbefore | hsame | hbehind
        · exact absurd hplace (hfirst place hbefore)
        · exact hsame
        · exact absurd hcrlf (hearlier lineEnd hbehind)
      rw [hsame, hline] at hprefix
      exact hprefix

/-- A line that does not end in the buffer is too long, whatever comes. -/
theorem not_healthy_of_full {response : Bytes} (h : healthyStatus response = none)
    (hfull : kResponseBytes ≤ response.length) (more : Bytes) :
    ¬ HealthyResponse (response ++ more) := by
  intro hhealthy
  obtain ⟨lineEnd, hmost, hcrlf, _⟩ := hhealthy
  have hnone : Text.findWord kCrlf response = none := by
    unfold healthyStatus at h
    split at h
    · assumption
    · cases h
  have hinside : lineEnd + kCrlf.length ≤ response.length := by
    have htwo : kCrlf.length = 2 := rfl
    unfold kResponseBytes kStatusLineTerminatorBytes at hfull
    omega
  exact Text.not_prefix_of_findWord_eq_none kCrlf_ne_nil hnone lineEnd
    ((Text.prefix_drop_append_iff hinside).mp hcrlf)

/-- A response that ends before its first line does is not well. -/
theorem not_healthy_of_ended {response : Bytes} (h : healthyStatus response = none) :
    ¬ HealthyResponse response := by
  intro hhealthy
  obtain ⟨lineEnd, _, hcrlf, _⟩ := hhealthy
  have hnone : Text.findWord kCrlf response = none := by
    unfold healthyStatus at h
    split at h
    · assumption
    · cases h
  exact Text.not_prefix_of_findWord_eq_none kCrlf_ne_nil hnone lineEnd hcrlf

/-! ## The probe of a backend -/

variable {clock : Nat}

/-- The result of a probe is the verdict on the response. -/
def Judges (healthy : Prop) (result : Option Bool) : Prop :=
  ∃ verdict, result = some verdict ∧ (verdict = true ↔ healthy)

/-- A refusal is right if the backend is not healthy. -/
theorem judges_false {healthy : Prop} (h : ¬ healthy) : Judges healthy (some false) :=
  ⟨false, rfl, iff_of_false Bool.false_ne_true h⟩

/-- **The loop of the probe.**  What is received and what is left make up the response; each
round takes a byte or a pause. -/
theorem readHealthyStatus_judges (deadline : Nat) {rounds : Nat} {response : Bytes} {w : Peer}
    (hnone : healthyStatus response = none) (hfits : response.length ≤ kResponseBytes)
    (hrounds : kResponseBytes - response.length + w.pauses < rounds) :
    Ensures (responding clock) w (readHealthyStatus deadline rounds response)
      (fun result _ => Judges (HealthyResponse (response ++ w.rest)) result) := by
  induction rounds generalizing response w with
  | zero => omega
  | succ rounds ih =>
      unfold readHealthyStatus
      split
      · rename_i hfull
        exact judges_false (not_healthy_of_full hnone hfull w.rest)
      · rename_i hroom
        refine ⟨trivial, fun result hresult => ?_⟩
        cases result with
        | received bytes =>
            obtain ⟨hsome, hcapacity, rest, hrest⟩ := hresult
            have hpos := List.length_pos_iff.mpr (hsome (by omega))
            have hlength : (response ++ bytes).length = response.length + bytes.length :=
              List.length_append
            have hwhole : response ++ bytes ++ w.rest.drop bytes.length = response ++ w.rest := by
              rw [← hrest, List.drop_left, List.append_assoc]
            dsimp only [Prog.bind]
            split
            · rename_i status hstatus
              refine ⟨status, rfl, ?_⟩
              have hverdict := healthyStatus_eq_some hstatus (by omega) (w.rest.drop bytes.length)
              rw [hwhole] at hverdict
              exact hverdict
            · rename_i hstatus
              have hloop := @ih (response ++ bytes)
                { w with rest := w.rest.drop bytes.length, pieces := w.pieces ++ [bytes] }
                hstatus (by omega) (by dsimp only; omega)
              rw [hwhole] at hloop
              exact hloop
        | closed =>
            have hended : w.rest = [] := hresult
            rw [hended, List.append_nil]
            exact judges_false (not_healthy_of_ended hnone)
        | again =>
            have hpause : 0 < w.pauses := hresult
            refine ⟨trivial, fun ready hready => ?_⟩
            have hready : ready = true := hready
            rw [hready]
            exact @ih response { w with pauses := w.pauses - 1 } hnone hfits (by dsimp only; omega)
        | interrupted =>
            have hpause : 0 < w.pauses := hresult
            exact @ih response { w with pauses := w.pauses - 1 } hnone hfits (by dsimp only; omega)
        | failed => exact absurd hresult id

/-! ## The probe of the container -/

/-- The beginning of a response that the container takes for health. -/
def kHealthyStart : Bytes := ascii "HTTP/1.1 200 "

/-- The first address that is tried connects. -/
theorem connectFirst_connects (addresses : List SocketAddress) (w : Peer) {deadline : Nat}
    (hdeadline : clock + kHealthCheckTimeout ≤ deadline) :
    Ensures (responding clock) w (connectFirst deadline addresses)
      (fun connected w' => connected = !addresses.isEmpty ∧ w' = w) := by
  cases addresses with
  | nil => exact ⟨rfl, rfl⟩
  | cons candidate rest =>
      refine ⟨trivial, fun (time : Nat) htime => ?_⟩
      have htime : clock ≤ time ∧ time < clock + kHealthCheckTimeout := htime
      show Ensures _ _ (if time ≥ deadline then _ else _) _
      rw [if_neg (show ¬ time ≥ deadline by omega)]
      refine ⟨trivial, fun connected hconnected => ?_⟩
      have hconnected : connected = true := hconnected
      rw [hconnected]
      exact ⟨rfl, rfl⟩

/-- The request is sent, however few bytes the peer takes at a time. -/
theorem sendCheckRequest_sends (deadline : Nat) {rounds : Nat} {remaining : Bytes} {w : Peer}
    (hnever : w.pauses = 0) (hrounds : remaining.length < rounds) :
    Ensures (responding clock) w (sendCheckRequest deadline rounds remaining)
      (fun sent w' => sent = some true ∧ w' = w) := by
  induction rounds generalizing remaining with
  | zero => omega
  | succ rounds ih =>
      unfold sendCheckRequest
      split
      · exact ⟨rfl, rfl⟩
      · rename_i hsome
        refine ⟨trivial, fun ready hready => ?_⟩
        have hready : ready = true := hready
        rw [hready]
        refine ⟨trivial, fun result hresult => ?_⟩
        cases result with
        | sent count =>
            have hcount : count ≤ remaining.length ∧ (remaining ≠ [] → 0 < count) := hresult
            have hpos := hcount.2 hsome
            refine ih ?_
            rw [List.length_drop]
            omega
        | retry =>
            have hpause : 0 < w.pauses := hresult
            omega
        | failed => exact absurd hresult id

/-- One piece decides: the first one, which is the beginning of the response. -/
theorem readCheckResponse_judges (deadline : Nat) {w : Peer} (hnever : w.pauses = 0)
    (hnew : w.pieces = []) :
    Ensures (responding clock) w (readCheckResponse deadline)
      (fun healthy w' => (healthy = true ↔ kHealthyStart <+: w'.first) ∧ w'.first <+: w.rest) := by
  have hnone : ¬ kHealthyStart <+: w.first := by
    unfold Peer.first
    rw [hnew]
    exact fun h => absurd (List.prefix_nil.mp h) (by decide)
  refine ⟨trivial, fun ready hready => ?_⟩
  have hready : ready = true := hready
  rw [hready]
  refine ⟨trivial, fun result hresult => ?_⟩
  cases result with
  | received bytes =>
      obtain ⟨_, _, hbeginning⟩ := hresult
      have hfirst : (w.pieces ++ [bytes]).headD [] = bytes := by
        rw [hnew]
        rfl
      show (kHealthyStart.isPrefixOf bytes = true ↔
          kHealthyStart <+: (w.pieces ++ [bytes]).headD []) ∧
        (w.pieces ++ [bytes]).headD [] <+: w.rest
      rw [hfirst, List.isPrefixOf_iff_prefix]
      exact ⟨Iff.rfl, hbeginning⟩
  | closed =>
      refine ⟨iff_of_false Bool.false_ne_true hnone, ?_⟩
      show w.first <+: w.rest
      unfold Peer.first
      rw [hnew]
      exact List.nil_prefix
  | again =>
      have hpause : 0 < w.pauses := hresult
      omega
  | interrupted =>
      have hpause : 0 < w.pauses := hresult
      omega
  | failed => exact absurd hresult id

/-- What the first piece says is right exactly if the response is not healthy, or the piece is
long enough to tell. -/
theorem first_piece_right {response first : Bytes} (h : first <+: response) :
    (kHealthyStart <+: first ↔ kHealthyStart <+: response) ↔
      ¬ kHealthyStart <+: response ∨ kHealthyStart.length ≤ first.length := by
  by_cases hhealthy : kHealthyStart <+: response
  · have htell : kHealthyStart <+: first ↔ kHealthyStart.length ≤ first.length :=
      ⟨List.IsPrefix.length_le, List.prefix_of_prefix_length_le hhealthy h⟩
    simp [hhealthy, htell]
  · have hnot : ¬ kHealthyStart <+: first := fun hfirst => hhealthy (hfirst.trans h)
    simp [hhealthy, hnot]

/-- The verdict of the container's probe, and when it is right. -/
theorem runHealthCheck_judges (addresses : List SocketAddress) {rounds : Nat} {w : Peer}
    (hnever : w.pauses = 0) (hnew : w.pieces = []) (hrounds : kCheckRequest.length < rounds) :
    Ensures (responding clock) w (runHealthCheck rounds addresses)
      (fun result w' => Judges (addresses ≠ [] ∧ kHealthyStart <+: w'.first) result ∧
        w'.first <+: w.rest) := by
  refine ⟨trivial, fun (start : Nat) hstart => ?_⟩
  have hstart : clock ≤ start ∧ start < clock + kHealthCheckTimeout := hstart
  refine (connectFirst_connects addresses w (by omega)).bind fun connected w₁ hconnected => ?_
  obtain ⟨hconnected, hw₁⟩ := hconnected
  subst hw₁
  cases addresses with
  | nil =>
      rw [hconnected]
      refine ⟨judges_false fun h => h.1 rfl, ?_⟩
      unfold Peer.first
      rw [hnew]
      exact List.nil_prefix
  | cons candidate rest =>
      rw [hconnected]
      refine (sendCheckRequest_sends _ hnever hrounds).bind fun sent w₂ hsent => ?_
      obtain ⟨hsent, hw₂⟩ := hsent
      subst hw₂
      rw [hsent]
      refine (readCheckResponse_judges _ hnever hnew).bind fun healthy w₃ hhealthy => ?_
      refine ⟨⟨healthy, rfl, hhealthy.1.trans ?_⟩, hhealthy.2⟩
      simp

/-- Two judgements of one backend agree. -/
theorem Judges.unique {healthy : Prop} {left right : Option Bool} (hleft : Judges healthy left)
    (hright : Judges healthy right) : left = right := by
  obtain ⟨verdict, hverdict, hiff⟩ := hleft
  obtain ⟨verdict', hverdict', hiff'⟩ := hright
  rw [hverdict, hverdict', Bool.eq_iff_iff.mpr (hiff.trans hiff'.symm)]

/-- **Verdicts and segmentations.**  That of the probe of a backend never depends on how the
response was cut.  That of the probe of the container is right exactly if the response does not
have the beginning that is looked for, or the first piece holds as many bytes; so two runs give
the same verdict where this is so. -/
theorem probe_verdicts_ignore_segments (response : Bytes) (clock deadline pauses rounds : Nat)
    (addresses : List SocketAddress) (hrounds : kResponseBytes + pauses < rounds) :
    (Ensures (responding clock) ⟨response, pauses, []⟩ (readHealthyStatus deadline rounds [])
        (fun result _ => Judges (HealthyResponse response) result) ∧
      ∀ left right w w',
        Runs (responding clock) ⟨response, pauses, []⟩ (readHealthyStatus deadline rounds []) left w →
        Runs (responding clock) ⟨response, pauses, []⟩ (readHealthyStatus deadline rounds []) right
          w' → left = right) ∧
    Ensures (responding clock) ⟨response, 0, []⟩ (runHealthCheck rounds addresses)
        (fun result w => ∃ verdict, result = some verdict ∧ (addresses = [] → verdict = false) ∧
          (addresses ≠ [] → ((verdict = true ↔ kHealthyStart <+: response) ↔
            ¬ kHealthyStart <+: response ∨ kHealthyStart.length ≤ w.first.length))) ∧
      ∀ left right w w',
        Runs (responding clock) ⟨response, 0, []⟩ (runHealthCheck rounds addresses) left w →
        Runs (responding clock) ⟨response, 0, []⟩ (runHealthCheck rounds addresses) right w' →
        (¬ kHealthyStart <+: response ∨
          kHealthyStart.length ≤ w.first.length ∧ kHealthyStart.length ≤ w'.first.length) →
        left = right := by
  have hbackend : Ensures (responding clock) ⟨response, pauses, []⟩
      (readHealthyStatus deadline rounds [])
      (fun result _ => Judges (HealthyResponse response) result) :=
    readHealthyStatus_judges deadline rfl (Nat.zero_le _) hrounds
  have hrequest : kCheckRequest.length < kResponseBytes := by decide +kernel
  have hcontainer : Ensures (responding clock) ⟨response, 0, []⟩ (runHealthCheck rounds addresses)
      (fun result w => Judges (addresses ≠ [] ∧ kHealthyStart <+: w.first) result ∧
        w.first <+: response) := runHealthCheck_judges addresses rfl rfl (by omega)
  refine ⟨⟨hbackend, fun left right w w' hleft hright =>
    (hbackend.sound hleft).unique (hbackend.sound hright)⟩, hcontainer.mono ?_, ?_⟩
  · intro result w hend
    obtain ⟨⟨verdict, hresult, hverdict⟩, hfirst⟩ := hend
    refine ⟨verdict, hresult, fun hnone => ?_, fun hsome => ?_⟩
    · exact Bool.eq_false_iff.mpr fun htrue => (hverdict.mp htrue).1 hnone
    · rw [← first_piece_right hfirst, hverdict, and_iff_right hsome]
  · intro left right w w' hleft hright hsame
    obtain ⟨hjudges, hfirst⟩ := hcontainer.sound hleft
    obtain ⟨hjudges', hfirst'⟩ := hcontainer.sound hright
    -- both verdicts are the one on the whole response
    have hagree : kHealthyStart <+: w'.first ↔ kHealthyStart <+: w.first :=
      ((first_piece_right hfirst').mpr (hsame.imp_right And.right)).trans
        ((first_piece_right hfirst).mpr (hsame.imp_right And.left)).symm
    rw [hagree] at hjudges'
    exact hjudges.unique hjudges'

/-! ## A response in two pieces -/

def kOkResponse : Bytes := ascii "HTTP/1.1 200 OK\r\n\r\n"

/-- A peer whose pieces have `count` bytes, as long as there are so many. -/
def pieces (count : Nat) (w : Peer) : (c : ProbeCall) → c.Answer
  | .now => Nat.zero
  | .stopRequested => false
  | .connectTcp _ _ => true
  | .waitFd _ _ => true
  | .send bytes => SendResult.sent bytes.length
  | .recv capacity =>
      if w.rest = [] then RecvResult.closed
      else RecvResult.received (w.rest.take (min count capacity))

/-- The container's own address. -/
def loopback : SocketAddress where
  value := []
  family := .inet

/-- Such pieces are a segmentation, whatever their size. -/
theorem pieces_allowed {count : Nat} (hcount : 0 < count) (w : Peer) (c : ProbeCall) :
    (responding 0).allows w c (pieces count w c) := by
  cases c with
  | now => exact ⟨Nat.le_refl 0, show 0 < 0 + kHealthCheckTimeout by decide⟩
  | stopRequested => exact rfl
  | connectTcp => exact rfl
  | waitFd => exact rfl
  | send bytes => exact ⟨Nat.le_refl _, List.length_pos_iff.mpr⟩
  | recv capacity =>
      -- The answer is `closed` or a piece; each is allowed where it is given.
      have hgiven : ∀ given : RecvResult, (responding 0).allows w (.recv capacity) given →
          pieces count w (.recv capacity) = given →
          (responding 0).allows w (.recv capacity) (pieces count w (.recv capacity)) := by
        intro given hallowed hsame
        exact hsame ▸ hallowed
      by_cases hleft : w.rest = []
      · exact hgiven .closed hleft (if_pos hleft)
      · have hpos := List.length_pos_iff.mpr hleft
        have hlength : (w.rest.take (min count capacity)).length =
            min (min count capacity) w.rest.length := List.length_take
        refine hgiven (.received (w.rest.take (min count capacity)))
          ⟨fun hcapacity => ?_, by omega, List.take_prefix _ _⟩ (if_neg hleft)
        exact List.length_pos_iff.mp (by omega)

/-- In pieces of sixteen bytes the response is healthy for a backend and for the container, whose
first piece was long enough. -/
theorem probe_verdicts_ignore_segments_ok :
    (∃ w, Runs (responding 0) ⟨kOkResponse, 0, []⟩ (readHealthyStatus 0 515 []) (some true) w ∧
      Judges (HealthyResponse kOkResponse) (some true)) ∧
    ∃ w, Runs (responding 0) ⟨kOkResponse, 0, []⟩ (runHealthCheck 515 [loopback]) (some true) w ∧
      kHealthyStart <+: kOkResponse ∧ kHealthyStart.length ≤ w.first.length := by
  have hrounds : kResponseBytes + 0 < 515 := by decide
  have hstart : kHealthyStart <+: kOkResponse := by decide +kernel
  obtain ⟨⟨hbackend, _⟩, hcontainer, _⟩ :=
    probe_verdicts_ignore_segments kOkResponse 0 0 0 515 [loopback] hrounds
  have hprobe := runs_play (pieces_allowed (show 0 < 16 by decide)) ⟨kOkResponse, 0, []⟩
    (readHealthyStatus 0 515 [])
  have hcheck := runs_play (pieces_allowed (show 0 < 16 by decide)) ⟨kOkResponse, 0, []⟩
    (runHealthCheck 515 [loopback])
  have hprobed : ((readHealthyStatus 0 515 []).play (responding 0) (pieces 16)
      ⟨kOkResponse, 0, []⟩).1 = some true := by decide +kernel
  have hchecked : ((runHealthCheck 515 [loopback]).play (responding 0) (pieces 16)
      ⟨kOkResponse, 0, []⟩).1 = some true := by decide +kernel
  rw [hprobed] at hprobe
  rw [hchecked] at hcheck
  refine ⟨⟨_, hprobe, hbackend.sound hprobe⟩, _, hcheck, hstart, ?_⟩
  obtain ⟨verdict, hverdict, _, hright⟩ := hcontainer.sound hcheck
  have htrue : verdict = true := (Option.some.inj hverdict).symm
  have hlong := (hright (by decide)).mp (iff_of_true htrue hstart)
  exact hlong.resolve_left (not_not.mpr hstart)

/-- **In pieces of four bytes it is not healthy for the container**, in one piece it is. -/
theorem container_probe_sees_segments :
    (∃ w, Runs (responding 0) ⟨kOkResponse, 0, []⟩ (runHealthCheck 515 [loopback]) (some true) w) ∧
      ∃ w, Runs (responding 0) ⟨kOkResponse, 0, []⟩ (runHealthCheck 515 [loopback])
        (some false) w := by
  have hwhole := runs_play (pieces_allowed (show 0 < 64 by decide)) ⟨kOkResponse, 0, []⟩
    (runHealthCheck 515 [loopback])
  have hcut := runs_play (pieces_allowed (show 0 < 4 by decide)) ⟨kOkResponse, 0, []⟩
    (runHealthCheck 515 [loopback])
  have hhealthy : ((runHealthCheck 515 [loopback]).play (responding 0) (pieces 64)
      ⟨kOkResponse, 0, []⟩).1 = some true := by decide +kernel
  have hunhealthy : ((runHealthCheck 515 [loopback]).play (responding 0) (pieces 4)
      ⟨kOkResponse, 0, []⟩).1 = some false := by decide +kernel
  rw [hhealthy] at hwhole
  rw [hunhealthy] at hcut
  exact ⟨⟨_, hwhole⟩, ⟨_, hcut⟩⟩

end Health

end PoolLb
