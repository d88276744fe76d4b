import PoolLb.Cyclic
import PoolLb.UpstreamConnect

/-!
# The candidates of a connection

A session that connects to its backend tries the addresses of the backend cyclically from
the one that its route number names, and for each of them the upstream sources of the same
family cyclically from the one that its source number names.  It keeps five counters to
know where it is, since every attempt may have to wait for an event.

`Dial.plan` is the list of attempts in the order in which they are due.  The counters of
the session always describe a rest of it, and the attempts that were made are what comes
before that rest.
-/

namespace PoolLb.Dial

open Interaction Handler Cyclic

/-! ## The plan -/

/-- An attempt: the address, and the source to bind to, if any. -/
abbrev Attempt := SocketAddress × Option SocketAddress

/-- What an address of a family can be tried with. -/
def choices (sources : List SocketAddress) (family : AddressFamily) : List (Option SocketAddress) :=
  if sources = [] then [none]
  else (sources.filter fun source => source.family = family).map some

/-- All the attempts there are to make. -/
def pairs (sources addresses : List SocketAddress) : List Attempt :=
  addresses.flatMap fun address => (choices sources address.family).map fun choice => (address, choice)

/-- The source number after some attempts. -/
def advanced (sources : List SocketAddress) (sequence count : Nat) : Nat :=
  if sources = [] then sequence else sequence + count

/-- Some attempts at one address. -/
def attemptsAt (sources : List SocketAddress) (address : SocketAddress) (sequence count : Nat) :
    List Attempt :=
  (walk (choices sources address.family) sequence count).map fun choice => (address, choice)

/-- The attempts at some addresses, in order. -/
def planFrom (sources : List SocketAddress) : List SocketAddress → Nat → List Attempt
  | [], _ => []
  | address :: rest, sequence =>
      let count := (choices sources address.family).length
      attemptsAt sources address sequence count ++
        planFrom sources rest (advanced sources sequence count)

/-- **The attempts of a session**, from its route number and its source number. -/
def plan (sources addresses : List SocketAddress) (route source : Nat) : List Attempt :=
  planFrom sources (walk addresses route addresses.length) source

variable {sources addresses : List SocketAddress} {sequence count : Nat}

/-- The attempts at an address are all there are, in another order. -/
theorem attemptsAt_perm (address : SocketAddress) :
    (attemptsAt sources address sequence (choices sources address.family).length).Perm
      ((choices sources address.family).map fun choice => (address, choice)) :=
  (walk_full_perm _ sequence).map _

theorem planFrom_perm : (planFrom sources addresses sequence).Perm (pairs sources addresses) := by
  induction addresses generalizing sequence with
  | nil => exact .nil
  | cons address rest ih => exact (attemptsAt_perm address).append ih

/-- **Every pair is in the plan exactly once.** -/
theorem plan_perm (sources addresses : List SocketAddress) (route source : Nat) :
    (plan sources addresses route source).Perm (pairs sources addresses) :=
  planFrom_perm.trans ((walk_full_perm addresses route).flatMap_right _)

/-- No pair mixes families. -/
theorem family_of_mem_pairs {address source : SocketAddress}
    (h : (address, some source) ∈ pairs sources addresses) :
    source ∈ sources ∧ source.family = address.family := by
  obtain ⟨other, _, hpair⟩ := List.mem_flatMap.mp h
  obtain ⟨choice, hchoice, heq⟩ := List.mem_map.mp hpair
  obtain ⟨haddress, hsource⟩ := Prod.mk.inj heq
  subst haddress hsource
  unfold choices at hchoice
  split at hchoice
  · simp at hchoice
  · obtain ⟨found, hfound, hsame⟩ := List.mem_map.mp hchoice
    cases hsame
    obtain ⟨hmem, hfamily⟩ := List.mem_filter.mp hfound
    exact ⟨hmem, of_decide_eq_true hfamily⟩

/-- An address counts as the code counts it. -/
theorem length_choices (sources : List SocketAddress) (family : AddressFamily) :
    (choices sources family).length =
      if sources = [] then 1 else compatibleSourceCount sources family := by
  unfold choices compatibleSourceCount
  split
  · rfl
  · rw [List.length_map, List.countP_eq_length_filter]

/-- As many attempts as were asked for. -/
theorem length_attemptsAt {address : SocketAddress}
    (h : count ≤ (choices sources address.family).length) :
    (attemptsAt sources address sequence count).length = count := by
  rw [attemptsAt, List.length_map, length_walk h]

/-- All attempts, address by address. -/
theorem length_pairs (sources addresses : List SocketAddress) :
    (pairs sources addresses).length =
      (addresses.map fun address => (choices sources address.family).length).sum := by
  unfold pairs
  rw [List.length_flatMap]
  simp

/-- Where there are no sources the source number does not matter. -/
theorem planFrom_plain (addresses : List SocketAddress) (sequence sequence' : Nat) :
    planFrom [] addresses sequence = planFrom [] addresses sequence' := by
  have hone : ∀ (address : SocketAddress) (sequence : Nat),
      attemptsAt [] address sequence 1 = attemptsAt [] address 0 1 := by
    intro address sequence
    have hchoices : choices [] address.family = [none] := rfl
    unfold attemptsAt
    rw [hchoices, ← walk_mod, List.length_singleton, Nat.mod_one]
  induction addresses generalizing sequence sequence' with
  | nil => rfl
  | cons address rest ih =>
      unfold planFrom
      dsimp only
      rw [show (choices [] address.family).length = 1 from rfl, hone address sequence,
        hone address sequence', ih (advanced [] sequence 1) (advanced [] sequence' 1)]

/-! ## The counters of a session -/

section

variable {s : Session}

/-- The addresses that were not visited yet. -/
def upcoming (s : Session) : List SocketAddress :=
  walk s.backendAddresses s.nextBackendAddress s.backendAddressesRemaining

/-- The attempts that are left at the current address. -/
def here (s : Session) : List Attempt :=
  match s.backendAddresses[s.currentBackendAddress]? with
  | some address =>
      attemptsAt s.sources address s.upstreamSourceSequence s.currentAddressSourcesRemaining
  | none => []

/-- The attempts that the counters of a session describe. -/
def left (s : Session) : List Attempt :=
  here s ++ planFrom s.sources (upcoming s)
    (advanced s.sources s.upstreamSourceSequence s.currentAddressSourcesRemaining)

/-- The counters fit together. -/
structure Sound (s : Session) : Prop where
  remaining : s.connectCandidatesRemaining = (left s).length
  addresses : s.backendAddressesRemaining ≤ s.backendAddresses.length
  next : s.backendAddressesRemaining > 0 → s.nextBackendAddress < s.backendAddresses.length
  current : s.currentAddressSourcesRemaining > 0 → ∃ address,
    s.backendAddresses[s.currentBackendAddress]? = some address ∧
    s.currentAddressSourcesRemaining ≤ (choices s.sources address.family).length

/-- Nothing is left at an address that is through. -/
theorem here_of_none (h : s.currentAddressSourcesRemaining = 0) : here s = [] := by
  unfold here
  split
  · rw [h, attemptsAt, walk_zero]
    rfl
  · rfl

/-- The counter of an address starts at the number of its choices. -/
theorem attemptsFor_eq (s : Session) (family : AddressFamily) :
    s.attemptsFor family = (choices s.sources family).length := (length_choices _ _).symm

/-- **One round of the inner loop** passes on to the next address, and leaves the same
attempts. -/
theorem left_nextAddress (h : Sound s) (hnone : s.currentAddressSourcesRemaining = 0)
    (hmore : s.backendAddressesRemaining > 0) :
    left s.nextAddress = left s ∧ Sound s.nextAddress := by
  have hnext := h.next hmore
  have hle := h.addresses
  obtain ⟨address, haddress⟩ : ∃ address, s.backendAddresses[s.nextBackendAddress]? = some address :=
    ⟨_, List.getElem?_eq_getElem hnext⟩
  obtain ⟨rest, hrest⟩ := Nat.exists_eq_succ_of_ne_zero (Nat.ne_of_gt hmore)
  have hupcoming : upcoming s = address :: upcoming s.nextAddress := by
    unfold upcoming
    rw [hrest, walk_succ (by omega) (by rw [Nat.mod_eq_of_lt hnext]; exact haddress)]
    congr 1
    show _ = walk s.backendAddresses ((s.nextBackendAddress + 1) % s.backendAddresses.length)
      (s.backendAddressesRemaining - 1)
    rw [walk_mod, hrest]
    rfl
  have hcount : s.nextAddress.currentAddressSourcesRemaining =
      (choices s.sources address.family).length := by
    rw [← attemptsFor_eq]
    show s.attemptsFor ((s.backendAddresses[s.nextBackendAddress]?).elim _ _) = _
    rw [haddress]
    rfl
  have hhere : here s.nextAddress = attemptsAt s.sources address s.upstreamSourceSequence
      (choices s.sources address.family).length := by
    unfold here
    have hcurrent : s.nextAddress.backendAddresses[s.nextAddress.currentBackendAddress]? =
        some address := haddress
    rw [hcurrent, ← hcount]
    rfl
  have hsame : left s.nextAddress = left s := by
    unfold left
    rw [hhere, hcount, here_of_none hnone, hupcoming, hnone]
    simp only [List.nil_append, planFrom]
    have hzero : advanced s.sources s.upstreamSourceSequence 0 = s.upstreamSourceSequence := by
      unfold advanced
      split <;> rfl
    rw [hzero]
    rfl
  refine ⟨hsame, ?_, ?_, ?_, ?_⟩
  · rw [hsame]
    exact h.remaining
  · show s.backendAddressesRemaining - 1 ≤ s.backendAddresses.length
    omega
  · intro _
    exact Nat.mod_lt _ (by omega)
  · intro _
    refine ⟨address, haddress, ?_⟩
    rw [hcount]
    exact le_refl _

/-- The candidates that are left, by address. -/
theorem length_left (h : Sound s) :
    s.connectCandidatesRemaining =
      s.currentAddressSourcesRemaining + (pairs s.sources (upcoming s)).length := by
  have hhere : (here s).length = s.currentAddressSourcesRemaining := by
    by_cases hnone : s.currentAddressSourcesRemaining = 0
    · rw [here_of_none hnone, hnone]
      rfl
    · obtain ⟨address, haddress, hle⟩ := h.current (Nat.pos_of_ne_zero hnone)
      unfold here
      rw [haddress]
      exact length_attemptsAt hle
  rw [h.remaining, left, List.length_append, hhere, planFrom_perm.length_eq]

/-- The fields that the plan of a session depends on. -/
structure Cursor where
  backend : Option Backend
  runtime : RuntimeSnapshot
  upstreamOverallDeadline : Nat
  upstreamSourceSequence : Nat
  currentBackendAddress : Nat
  nextBackendAddress : Nat
  backendAddressesRemaining : Nat
  currentAddressSourcesRemaining : Nat
  connectCandidatesRemaining : Nat

def cursor (s : Session) : Cursor where
  backend := s.backend
  runtime := s.runtime
  upstreamOverallDeadline := s.upstreamOverallDeadline
  upstreamSourceSequence := s.upstreamSourceSequence
  currentBackendAddress := s.currentBackendAddress
  nextBackendAddress := s.nextBackendAddress
  backendAddressesRemaining := s.backendAddressesRemaining
  currentAddressSourcesRemaining := s.currentAddressSourcesRemaining
  connectCandidatesRemaining := s.connectCandidatesRemaining

variable {s' : Session}

theorem addresses_congr (h : cursor s' = cursor s) :
    s'.backendAddresses = s.backendAddresses ∧ s'.sources = s.sources := by
  obtain ⟨hbackend, hruntime, _⟩ := Cursor.mk.inj h
  unfold Session.backendAddresses Session.sources
  rw [hbackend, hruntime]
  exact ⟨rfl, rfl⟩

theorem left_congr (h : cursor s' = cursor s) : left s' = left s := by
  obtain ⟨haddresses, hsources⟩ := addresses_congr h
  obtain ⟨_, _, _, hsequence, hcurrent, hnext, hcount, hhere, _⟩ := Cursor.mk.inj h
  unfold left here upcoming
  rw [haddresses, hsources, hsequence, hcurrent, hnext, hcount, hhere]

theorem Sound.congr (hs : Sound s) (h : cursor s' = cursor s) : Sound s' := by
  obtain ⟨haddresses, hsources⟩ := addresses_congr h
  have hleft := left_congr h
  obtain ⟨_, _, _, hsequence, hcurrent, hnext, hcount, hhere, hall⟩ := Cursor.mk.inj h
  constructor
  · rw [hall, hleft]
    exact hs.remaining
  · rw [hcount, haddresses]
    exact hs.addresses
  · rw [hcount, hnext, haddresses]
    exact hs.next
  · rw [hhere, haddresses, hcurrent, hsources]
    exact hs.current

/-- The fields that no step of the enumeration changes. -/
structure Fixed (s s' : Session) : Prop where
  backend : s'.backend = s.backend
  runtime : s'.runtime = s.runtime
  deadline : s'.upstreamOverallDeadline = s.upstreamOverallDeadline

theorem Fixed.refl (s : Session) : Fixed s s := ⟨rfl, rfl, rfl⟩

theorem Fixed.trans {s₁ s₂ s₃ : Session} (h : Fixed s₁ s₂) (h' : Fixed s₂ s₃) : Fixed s₁ s₃ :=
  ⟨h'.backend.trans h.backend, h'.runtime.trans h.runtime, h'.deadline.trans h.deadline⟩

/-- The fixed fields are part of the cursor. -/
theorem fixed_of_cursor (h : cursor s' = cursor s) : Fixed s s' := by
  obtain ⟨hbackend, hruntime, hdeadline, _⟩ := Cursor.mk.inj h
  exact ⟨hbackend, hruntime, hdeadline⟩

/-- **The inner loop** ends at an address with attempts left, or there is none. -/
theorem left_seekAddress (h : Sound s) {rounds : Nat} (hrounds : s.backendAddressesRemaining ≤ rounds) :
    left (s.seekAddress rounds) = left s ∧ Sound (s.seekAddress rounds) ∧
      Fixed s (s.seekAddress rounds) ∧
      ((s.seekAddress rounds).currentAddressSourcesRemaining = 0 → left s = []) := by
  induction rounds generalizing s with
  | zero =>
      refine ⟨rfl, h, .refl s, fun hnone => ?_⟩
      have hnone : s.currentAddressSourcesRemaining = 0 := hnone
      have hzero : s.backendAddressesRemaining = 0 := by omega
      unfold left upcoming
      rw [here_of_none hnone, hzero, walk_zero]
      rfl
  | succ rounds ih =>
      unfold Session.seekAddress
      split
      · rename_i hmore
        obtain ⟨hsame, hsound⟩ := left_nextAddress h hmore.1 hmore.2
        have hless : s.nextAddress.backendAddressesRemaining ≤ rounds := by
          show s.backendAddressesRemaining - 1 ≤ rounds
          omega
        obtain ⟨hleft, hnext, hfixed, hnone⟩ := ih hsound hless
        have hstep : Fixed s s.nextAddress := ⟨rfl, rfl, rfl⟩
        exact ⟨hleft.trans hsame, hnext, hstep.trans hfixed, fun hzero => hsame ▸ hnone hzero⟩
      · rename_i hend
        refine ⟨rfl, h, .refl s, fun hnone => ?_⟩
        have hzero : s.backendAddressesRemaining = 0 := by
          by_contra hpos
          exact hend ⟨hnone, Nat.pos_of_ne_zero hpos⟩
        unfold left upcoming
        rw [here_of_none hnone, hzero, walk_zero]
        rfl

/-- **The code counts all candidates.** -/
theorem allCandidates_eq (s : Session) :
    s.allCandidates = (pairs s.sources s.backendAddresses).length := by
  rw [length_pairs]
  unfold Session.allCandidates
  simp only [length_choices]
  split
  · simp
  · rfl

/-- **The counters at the beginning** describe the whole plan. -/
theorem left_of_opened {route : Nat} (hnone : s.currentAddressSourcesRemaining = 0)
    (hnext : s.nextBackendAddress = route % s.backendAddresses.length)
    (hcount : s.backendAddressesRemaining = s.backendAddresses.length)
    (hall : s.connectCandidatesRemaining = s.allCandidates) :
    left s = plan s.sources s.backendAddresses route s.upstreamSourceSequence ∧ Sound s := by
  have hzero : advanced s.sources s.upstreamSourceSequence 0 = s.upstreamSourceSequence := by
    unfold advanced
    split <;> rfl
  have hleft : left s = plan s.sources s.backendAddresses route s.upstreamSourceSequence := by
    unfold left upcoming plan
    rw [here_of_none hnone, hnone, hzero, hnext, hcount, walk_mod]
    rfl
  refine ⟨hleft, ?_, hcount.le, ?_, ?_⟩
  · rw [hleft, hall, allCandidates_eq, (plan_perm _ _ _ _).length_eq]
  · intro hpos
    rw [hnext]
    exact Nat.mod_lt _ (hcount ▸ hpos)
  · intro hpos
    omega

/-- A session that has no candidates yet. -/
theorem sound_of_blank (hnone : s.currentAddressSourcesRemaining = 0)
    (hcount : s.backendAddressesRemaining = 0) (hall : s.connectCandidatesRemaining = 0) :
    left s = [] ∧ Sound s := by
  have hleft : left s = [] := by
    unfold left upcoming
    rw [here_of_none hnone, hcount, walk_zero]
    rfl
  refine ⟨hleft, ?_, ?_, ?_, ?_⟩
  · rw [hleft, hall]
    rfl
  · omega
  · omega
  · omega

/-- The candidate of a session, from the choices at its address. -/
theorem candidate_eq {address : SocketAddress} {choice : Option SocketAddress}
    (haddress : s.backendAddresses[s.currentBackendAddress]? = some address)
    (hchoice : (choices s.sources address.family)[s.upstreamSourceSequence %
      (choices s.sources address.family).length]? = some choice) :
    s.candidate = some (address, choice) := by
  unfold Session.candidate
  rw [haddress]
  unfold choices at hchoice
  by_cases hplain : s.sources = []
  · rw [if_pos hplain] at hchoice
    have hnone : choice = none := by
      rw [List.length_singleton, Nat.mod_one] at hchoice
      cases hchoice
      rfl
    simp [hplain, hnone]
  · rw [if_neg hplain, List.length_map, List.getElem?_map] at hchoice
    obtain ⟨source, hsource, hsome⟩ := Option.map_eq_some_iff.mp hchoice
    have hpos : (s.sources.filter fun other => other.family = address.family).length ≠ 0 := by
      intro hzero
      rw [List.length_eq_zero_iff.mp hzero] at hsource
      cases hsource
    simp only [Option.bind_some, if_neg hplain, selectCompatibleSource, if_neg hpos]
    rw [hsource, ← hsome]
    rfl

/-- The session after an attempt was taken off its books. -/
def spent (s : Session) : Session := s.advanceSource.spendCandidate

/-- One attempt less, here and in all. -/
theorem spent_fields (s : Session) : Fixed s (spent s) ∧
    (spent s).currentBackendAddress = s.currentBackendAddress ∧
    (spent s).nextBackendAddress = s.nextBackendAddress ∧
    (spent s).backendAddressesRemaining = s.backendAddressesRemaining ∧
    (spent s).currentAddressSourcesRemaining = s.currentAddressSourcesRemaining - 1 ∧
    (spent s).connectCandidatesRemaining = s.connectCandidatesRemaining - 1 ∧
    (spent s).upstreamSourceSequence = advanced s.sources s.upstreamSourceSequence 1 := by
  unfold spent Session.advanceSource advanced
  split
  · exact ⟨⟨rfl, rfl, rfl⟩, rfl, rfl, rfl, rfl, rfl, rfl⟩
  · exact ⟨⟨rfl, rfl, rfl⟩, rfl, rfl, rfl, rfl, rfl, rfl⟩

/-- The source numbers of consecutive attempts are consecutive. -/
theorem advanced_succ (sources : List SocketAddress) (sequence count : Nat) :
    advanced sources (advanced sources sequence 1) count = advanced sources sequence (count + 1) := by
  unfold advanced
  split
  · rfl
  · omega

/-- **One attempt** is the first of those that are left. -/
theorem left_spent (h : Sound s) (hpos : s.currentAddressSourcesRemaining ≠ 0) :
    ∃ address choice, s.candidate = some (address, choice) ∧
      left s = (address, choice) :: left (spent s) ∧ Sound (spent s) := by
  obtain ⟨address, haddress, hle⟩ := h.current (Nat.pos_of_ne_zero hpos)
  obtain ⟨rest, hrest⟩ := Nat.exists_eq_succ_of_ne_zero hpos
  obtain ⟨hfixed, hcurrent, hnext, hcount, hhere, hall, hsequence⟩ := spent_fields s
  have haddresses : (spent s).backendAddresses = s.backendAddresses := by
    unfold Session.backendAddresses
    rw [hfixed.backend]
  have hsources : (spent s).sources = s.sources := by
    unfold Session.sources
    rw [hfixed.runtime]
  have hlength : 0 < (choices s.sources address.family).length := by omega
  obtain ⟨choice, hchoice⟩ : ∃ choice, (choices s.sources address.family)[s.upstreamSourceSequence %
      (choices s.sources address.family).length]? = some choice :=
    ⟨_, List.getElem?_eq_getElem (Nat.mod_lt _ hlength)⟩
  -- the attempts that are left at this address after this one
  have hleftHere : here (spent s) =
      attemptsAt s.sources address (s.upstreamSourceSequence + 1) rest := by
    unfold here
    rw [haddresses, hcurrent, haddress, hsources, hsequence, hhere, hrest]
    show attemptsAt s.sources address (advanced s.sources s.upstreamSourceSequence 1) rest = _
    unfold advanced
    split
    · rename_i hplain
      have hnone : rest = 0 := by
        rw [length_choices, if_pos hplain] at hle
        omega
      rw [hnone, attemptsAt, attemptsAt, walk_zero, walk_zero]
    · rfl
  have hhereNow : here s = (address, choice) :: here (spent s) := by
    rw [hleftHere]
    unfold here
    rw [haddress, hrest]
    show attemptsAt s.sources address s.upstreamSourceSequence (rest + 1) = _
    rw [attemptsAt, walk_succ (by omega) hchoice]
    rfl
  have hleft : left s = (address, choice) :: left (spent s) := by
    unfold left upcoming
    rw [hhereNow, haddresses, hsources, hnext, hcount, hsequence, hhere, advanced_succ, hrest]
    rfl
  refine ⟨address, choice, candidate_eq haddress hchoice, hleft, ?_, ?_, ?_, ?_⟩
  · rw [hall, h.remaining, hleft]
    rfl
  · rw [hcount, haddresses]
    exact h.addresses
  · rw [hcount, hnext, haddresses]
    exact h.next
  · intro _
    refine ⟨address, by rw [haddresses, hcurrent]; exact haddress, ?_⟩
    rw [hhere, hsources]
    omega

end

end PoolLb.Dial
