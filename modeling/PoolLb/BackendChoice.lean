import Mathlib.Data.List.Rotate
import PoolLb.Router

/-!
# The choice of a backend

`select_backend` and `has_routable_backend` walk the same table in their own ways.
In a pool the choice is the first healthy backend of least load, in the order that
starts at the sequence number and goes around; the pool is the active one if it has
a healthy backend, and otherwise the first other one that has, if failover is on.
-/

namespace PoolLb

namespace Router

variable {view : BackendView}

def healthy (view : BackendView) (backend : Backend) : Bool := (view backend.ref).healthy

def load (view : BackendView) (backend : Backend) : Nat := (view backend.ref).activeConnections

/-! ## Inside a pool -/

/-- `chosen` stands in the list as the first healthy backend of least load. -/
def FirstLeast (view : BackendView) (backends : List Backend) (chosen : Backend) : Prop :=
  ∃ before after, backends = before ++ chosen :: after ∧ healthy view chosen = true ∧
    (∀ other ∈ before, healthy view other = true → load view chosen < load view other) ∧
    ∀ other ∈ after, healthy view other = true → load view chosen ≤ load view other

/-- What one scan has selected. -/
def Selected (view : BackendView) (backends : List Backend) : Option (Backend × Nat) → Prop
  | none => ∀ backend ∈ backends, healthy view backend = false
  | some (chosen, chosenLoad) => FirstLeast view backends chosen ∧ chosenLoad = load view chosen

/-- One more candidate. -/
theorem selected_preferLess {backends : List Backend} {selected : Option (Backend × Nat)}
    (h : Selected view backends selected) (candidate : Backend) :
    Selected view (backends ++ [candidate]) (preferLess view selected candidate) := by
  unfold preferLess
  by_cases hhealthy : (view candidate.ref).healthy = true
  · rw [if_neg (not_not.mpr hhealthy)]
    cases selected with
    | none =>
        refine ⟨⟨backends, [], rfl, hhealthy, ?_, nofun⟩, rfl⟩
        intro other hother hup
        rw [h other hother] at hup
        cases hup
    | some chosen =>
        obtain ⟨chosen, chosenLoad⟩ := chosen
        obtain ⟨⟨before, after, hlist, hchosen, hbefore, hafter⟩, hload⟩ := h
        dsimp only
        split
        · rename_i hless
          refine ⟨⟨backends, [], rfl, hhealthy, ?_, nofun⟩, rfl⟩
          have hleast : load view candidate < load view chosen := by
            rw [hload] at hless
            exact hless
          intro other hother hup
          rw [hlist] at hother
          rcases List.mem_append.mp hother with hfirst | hrest
          · exact Nat.lt_trans hleast (hbefore other hfirst hup)
          · rcases List.mem_cons.mp hrest with hself | hlater
            · rw [hself]
              exact hleast
            · exact Nat.lt_of_lt_of_le hleast (hafter other hlater hup)
        · rename_i hkept
          refine ⟨⟨before, after ++ [candidate], by rw [hlist]; simp, hchosen, hbefore, ?_⟩, hload⟩
          intro other hother hup
          rcases List.mem_append.mp hother with hlater | hlast
          · exact hafter other hlater hup
          · rw [List.mem_singleton.mp hlast]
            rw [hload] at hkept
            exact Nat.le_of_not_lt hkept
  · rw [if_pos hhealthy]
    have hdown : healthy view candidate = false := Bool.eq_false_iff.mpr hhealthy
    cases selected with
    | none =>
        intro other hother
        rcases List.mem_append.mp hother with hold | hnew
        · exact h other hold
        · rw [List.mem_singleton.mp hnew]
          exact hdown
    | some chosen =>
        obtain ⟨⟨before, after, hlist, hchosen, hbefore, hafter⟩, hload⟩ := h
        refine ⟨⟨before, after ++ [candidate], by rw [hlist]; simp, hchosen, hbefore, ?_⟩, hload⟩
        intro other hother hup
        rcases List.mem_append.mp hother with hlater | hlast
        · exact hafter other hlater hup
        · rw [List.mem_singleton.mp hlast, hdown] at hup
          cases hup

/-- The whole scan of a list. -/
theorem selected_foldl (backends : List Backend) :
    Selected view backends (backends.foldl (preferLess view) none) := by
  induction backends using List.reverseRecOn with
  | nil => exact nofun
  | append_singleton backends candidate ih =>
      rw [List.foldl_append]
      exact selected_preferLess ih candidate

/-- How far a place of a pool is from where a scan starts, around the pool. -/
def distance (pool : PoolState) (sequence index : Nat) : Nat :=
  (index + (pool.backends.length - sequence % pool.backends.length)) % pool.backends.length

/-- The specified choice in a pool: healthy, of least load, and first among its equals. -/
def Preferred (view : BackendView) (pool : PoolState) (sequence : Nat) (chosen : Backend) : Prop :=
  ∃ index, pool.backends[index]? = some chosen ∧ healthy view chosen = true ∧
    ∀ (place : Nat) (other : Backend), pool.backends[place]? = some other →
      healthy view other = true →
      load view chosen ≤ load view other ∧
        (load view other = load view chosen →
          distance pool sequence index ≤ distance pool sequence place)

/-- The place in the order of the scan is the distance. -/
theorem getElem?_rotate_distance {pool : PoolState} {sequence index : Nat}
    (hindex : index < pool.backends.length) :
    distance pool sequence index < pool.backends.length ∧
      (pool.backends.rotate (sequence % pool.backends.length))[distance pool sequence index]? =
        pool.backends[index]? := by
  have hpos : 0 < pool.backends.length := by omega
  have hoffset := Nat.mod_lt sequence hpos
  have hdistance : distance pool sequence index < pool.backends.length := Nat.mod_lt _ hpos
  refine ⟨hdistance, ?_⟩
  rw [List.getElem?_rotate hdistance]
  congr 1
  unfold distance
  rw [Nat.mod_add_mod]
  have hturn : index + (pool.backends.length - sequence % pool.backends.length) +
      sequence % pool.backends.length = index + pool.backends.length := by omega
  rw [hturn, Nat.add_mod_right, Nat.mod_eq_of_lt hindex]

/-- The first healthy backend of least load in the order of the scan is the specified one. -/
theorem preferred_of_firstLeast {pool : PoolState} {sequence : Nat} {chosen : Backend}
    (h : FirstLeast view (pool.backends.rotate (sequence % pool.backends.length)) chosen) :
    Preferred view pool sequence chosen := by
  obtain ⟨before, after, hlist, hhealthy, hbefore, hafter⟩ := h
  have hlength : before.length < pool.backends.length := by
    have hcount := congrArg List.length hlist
    rw [List.length_rotate, List.length_append, List.length_cons] at hcount
    omega
  have hchosen : (pool.backends.rotate (sequence % pool.backends.length))[before.length]? =
      some chosen := by
    rw [hlist]
    simp
  have hoffset := Nat.mod_lt sequence (show 0 < pool.backends.length by omega)
  -- The place of the chosen backend in the pool, and its distance.
  have hplace : pool.backends[(before.length + sequence % pool.backends.length) %
      pool.backends.length]? = some chosen := by
    rw [← List.getElem?_rotate hlength]
    exact hchosen
  have hdistance : distance pool sequence ((before.length + sequence % pool.backends.length) %
      pool.backends.length) = before.length := by
    unfold distance
    rw [Nat.mod_add_mod]
    have hturn : before.length + sequence % pool.backends.length +
        (pool.backends.length - sequence % pool.backends.length) =
          before.length + pool.backends.length := by omega
    rw [hturn, Nat.add_mod_right, Nat.mod_eq_of_lt hlength]
  refine ⟨_, hplace, hhealthy, ?_⟩
  intro place other hother hup
  have hinside : place < pool.backends.length := by
    by_contra hout
    rw [List.getElem?_eq_none (by omega)] at hother
    cases hother
  obtain ⟨_, hscan⟩ := @getElem?_rotate_distance pool sequence place hinside
  rw [hother, hlist] at hscan
  rw [hdistance]
  by_cases hearlier : distance pool sequence place < before.length
  · rw [List.getElem?_append_left hearlier] at hscan
    have hless := hbefore other (List.mem_of_getElem? hscan) hup
    exact ⟨Nat.le_of_lt hless, fun hequal => absurd hequal (Nat.ne_of_gt hless)⟩
  · refine ⟨?_, fun _ => Nat.le_of_not_lt hearlier⟩
    rw [List.getElem?_append_right (by omega)] at hscan
    rcases List.mem_cons.mp (List.mem_of_getElem? hscan) with hself | hlater
    · rw [hself]
    · exact hafter other hlater hup

/-- **The choice in a pool** exists if a backend is healthy, and is the specified one. -/
theorem chooseFromPool_spec (view : BackendView) (pool : PoolState) (sequence : Nat) :
    (chooseFromPool view pool sequence).isSome = poolHasHealthyBackend view pool ∧
      ∀ chosen, chooseFromPool view pool sequence = some chosen →
        Preferred view pool sequence chosen := by
  have hscan := @selected_foldl view (pool.backends.rotate (sequence % pool.backends.length))
  unfold chooseFromPool
  dsimp only
  cases hselected : (pool.backends.rotate (sequence % pool.backends.length)).foldl
      (preferLess view) none with
  | none =>
      rw [hselected] at hscan
      refine ⟨?_, nofun⟩
      symm
      show poolHasHealthyBackend view pool = false
      refine List.any_eq_false.mpr fun backend hbackend => ?_
      have hdown := hscan backend (List.mem_rotate.mpr hbackend)
      unfold healthy at hdown
      rw [hdown]
      exact Bool.false_ne_true
  | some selected =>
      obtain ⟨chosen, chosenLoad⟩ := selected
      rw [hselected] at hscan
      have hpreferred := preferred_of_firstLeast hscan.1
      refine ⟨?_, ?_⟩
      · obtain ⟨index, hplace, hhealthy, _⟩ := hpreferred
        symm
        exact List.any_eq_true.mpr ⟨chosen, List.mem_of_getElem? hplace, hhealthy⟩
      · intro other hother
        rw [← Option.some.inj hother]
        exact hpreferred

/-! ## Among the pools -/

/-- A search that leaves out one place finds the first other place. -/
theorem exists_of_findSome?_eraseIdx {α β : Type} {f : α → Option β} {found : β}
    {items : List α} {skipped : Nat} (h : (items.eraseIdx skipped).findSome? f = some found) :
    ∃ index item, items[index]? = some item ∧ index ≠ skipped ∧ f item = some found ∧
      ∀ earlier < index, earlier ≠ skipped → ∀ other, items[earlier]? = some other →
        f other = none := by
  induction items generalizing skipped with
  | nil => cases h
  | cons first rest ih =>
      cases skipped with
      | zero =>
          obtain ⟨before, item, after, hrest, hitem, hbefore⟩ := List.findSome?_eq_some_iff.mp h
          rw [List.eraseIdx_cons_zero] at hrest
          refine ⟨before.length + 1, item, by rw [hrest]; simp, by omega, hitem, ?_⟩
          intro earlier hearlier hzero other hother
          obtain ⟨place, hplace⟩ := Nat.exists_eq_succ_of_ne_zero hzero
          rw [hplace, List.getElem?_cons_succ, hrest,
            List.getElem?_append_left (by omega)] at hother
          exact hbefore other (List.mem_of_getElem? hother)
      | succ skipped =>
          rw [List.eraseIdx_cons_succ, List.findSome?_cons] at h
          cases hfirst : f first with
          | some value =>
              rw [hfirst] at h
              refine ⟨0, first, rfl, by omega, hfirst.trans h, ?_⟩
              intro earlier hearlier
              omega
          | none =>
              rw [hfirst] at h
              obtain ⟨index, item, hindex, hother, hitem, hbefore⟩ := ih h
              refine ⟨index + 1, item, by rwa [List.getElem?_cons_succ], by omega, hitem, ?_⟩
              intro earlier hearlier hplace other hsome
              cases earlier with
              | zero =>
                  rw [← Option.some.inj hsome]
                  exact hfirst
              | succ earlier =>
                  rw [List.getElem?_cons_succ] at hsome
                  exact hbefore earlier (by omega) (by omega) other hsome

/-- The active pool has a healthy backend. -/
def activeIsUp (view : BackendView) (table : RoutingTable) : Bool :=
  (table.pools[table.activePoolIndex]?).any (poolHasHealthyBackend view)

/-- The specified pool: the active one if it is up; else, with failover, the first other. -/
def PoolChosen (view : BackendView) (table : RoutingTable) (poolIndex : Nat) : Prop :=
  if activeIsUp view table then poolIndex = table.activePoolIndex
  else table.failover = true ∧ poolIndex ≠ table.activePoolIndex ∧
    ∀ earlier < poolIndex, earlier ≠ table.activePoolIndex →
      ∀ pool, table.pools[earlier]? = some pool → poolHasHealthyBackend view pool = false

/-- A pool gives no backend exactly if none of its backends is healthy. -/
theorem chooseFromPool_eq_none_iff (view : BackendView) (pool : PoolState) (sequence : Nat) :
    chooseFromPool view pool sequence = none ↔ poolHasHealthyBackend view pool = false := by
  rw [← (chooseFromPool_spec view pool sequence).1, ← Option.isNone_iff_eq_none,
    Option.isSome_eq_false_iff]

/-- The active pool gives a backend if it is up. -/
theorem isSome_active (view : BackendView) (table : RoutingTable) (sequence : Nat) :
    ((table.pools[table.activePoolIndex]?).bind fun pool =>
      chooseFromPool view pool sequence).isSome = activeIsUp view table := by
  unfold activeIsUp
  cases table.pools[table.activePoolIndex]? with
  | none => rfl
  | some pool => exact (chooseFromPool_spec view pool sequence).1

/-- A backend is chosen in the specified pool, and there it is the specified one. -/
theorem selectBackend_spec {table : RoutingTable} {sequence : Nat} {chosen : Backend}
    (h : selectBackend view table sequence = some chosen) :
    ∃ poolIndex pool, table.pools[poolIndex]? = some pool ∧ PoolChosen view table poolIndex ∧
      Preferred view pool sequence chosen := by
  have hup := isSome_active view table sequence
  unfold selectBackend at h
  dsimp only at h
  unfold PoolChosen
  split at h
  · rename_i backend hactive
    cases h
    rw [hactive] at hup
    obtain ⟨pool, hpool, hchoice⟩ := Option.bind_eq_some_iff.mp hactive
    have hactiveUp : activeIsUp view table = true := hup.symm
    refine ⟨table.activePoolIndex, pool, hpool, ?_, (chooseFromPool_spec _ _ _).2 _ hchoice⟩
    rw [if_pos hactiveUp]
  · rename_i hactive
    rw [hactive] at hup
    split at h
    · cases h
    · rename_i hfailover
      obtain ⟨poolIndex, pool, hpool, hother, hchoice, hbefore⟩ := exists_of_findSome?_eraseIdx h
      refine ⟨poolIndex, pool, hpool, ?_, (chooseFromPool_spec _ _ _).2 _ hchoice⟩
      rw [if_neg (by rw [← hup]; exact Bool.false_ne_true)]
      refine ⟨not_not.mp hfailover, hother, ?_⟩
      intro earlier hearlier hplace pool' hpool'
      exact (chooseFromPool_eq_none_iff view pool' sequence).mp
        (hbefore earlier hearlier hplace pool' hpool')

/-- What is chosen is one of the table. -/
theorem mem_of_selectBackend {table : RoutingTable} {sequence : Nat} {chosen : Backend}
    (h : selectBackend view table sequence = some chosen) : chosen ∈ table.backends := by
  obtain ⟨poolIndex, pool, hpool, _, index, hplace, _⟩ := selectBackend_spec h
  exact List.mem_flatMap.mpr ⟨pool, List.mem_of_getElem? hpool, List.mem_of_getElem? hplace⟩

/-- The two traversals agree. -/
theorem isSome_selectBackend (view : BackendView) (table : RoutingTable) (sequence : Nat) :
    (selectBackend view table sequence).isSome = hasRoutableBackend view table := by
  have hup := isSome_active view table sequence
  unfold selectBackend hasRoutableBackend
  dsimp only
  change _ = if activeIsUp view table = true then _ else _
  rw [← hup]
  cases hactive : (table.pools[table.activePoolIndex]?).bind fun pool =>
      chooseFromPool view pool sequence with
  | some backend => rfl
  | none =>
      by_cases hfailover : table.failover = true
      · simp only [hfailover, not_true_eq_false, if_false, Option.isSome_none, Bool.false_eq_true]
        cases hfound : (table.pools.eraseIdx table.activePoolIndex).findSome? fun pool =>
            chooseFromPool view pool sequence with
        | some chosen =>
            obtain ⟨poolIndex, pool, hpool, hother, hchoice, _⟩ :=
              exists_of_findSome?_eraseIdx hfound
            have hhealthy := (chooseFromPool_spec view pool sequence).1
            rw [hchoice] at hhealthy
            symm
            exact List.any_eq_true.mpr ⟨(pool, poolIndex), List.mem_zipIdx_iff_getElem?.mpr hpool,
              decide_eq_true ⟨hother, hhealthy.symm⟩⟩
        | none =>
            symm
            refine List.any_eq_false.mpr fun entry hentry => ?_
            obtain ⟨pool, poolIndex⟩ := entry
            intro hrouted
            obtain ⟨hother, hhealthy⟩ := of_decide_eq_true hrouted
            have hmem : pool ∈ table.pools.eraseIdx table.activePoolIndex :=
              List.mem_eraseIdx_iff_getElem?.mpr
                ⟨poolIndex, hother, List.mem_zipIdx_iff_getElem?.mp hentry⟩
            have hnone := List.findSome?_eq_none_iff.mp hfound pool hmem
            rw [(chooseFromPool_eq_none_iff view pool sequence).mp hnone] at hhealthy
            cases hhealthy
      · simp [hfailover]

/-- **The choice of a backend meets its specification, and readiness agrees with it.** -/
theorem backend_choice_specified (view : BackendView) (table : RoutingTable) (sequence : Nat) :
    ((∃ chosen, selectBackend view table sequence = some chosen) ↔
      hasRoutableBackend view table = true) ∧
    ∀ chosen, selectBackend view table sequence = some chosen →
      ∃ poolIndex pool, table.pools[poolIndex]? = some pool ∧ PoolChosen view table poolIndex ∧
        Preferred view pool sequence chosen := by
  refine ⟨?_, fun chosen h => selectBackend_spec h⟩
  rw [← isSome_selectBackend view table sequence, Option.isSome_iff_exists]

/-- An active pool that is down, and another one with two backends. -/
def standbyTable : RoutingTable where
  pools := [{ backends := [{ ref := 0, socketAddresses := [] }] },
    { backends := [{ ref := 1, socketAddresses := [] }, { ref := 2, socketAddresses := [] }] }]

/-- The first backend is down, the others have the same load. -/
def standbyView : BackendView := fun ref => { healthy := ref ≠ 0, activeConnections := 5 }

/-- With an odd sequence number the second backend of the other pool is chosen. -/
theorem backend_choice_specified_standby :
    hasRoutableBackend standbyView standbyTable = true ∧
      ∃ poolIndex pool, standbyTable.pools[poolIndex]? = some pool ∧
        PoolChosen standbyView standbyTable poolIndex ∧
        Preferred standbyView pool 3 { ref := 2, socketAddresses := [] } := by
  have hchoice := backend_choice_specified standbyView standbyTable 3
  have hchosen : selectBackend standbyView standbyTable 3 =
      some { ref := 2, socketAddresses := [] } := by decide +kernel
  exact ⟨hchoice.1.mp ⟨_, hchosen⟩, hchoice.2 _ hchosen⟩

end Router

end PoolLb
