import Mathlib.Logic.Function.Basic
import PoolLb.Handler
import PoolLb.Router

/-!
# What the main thread asks of the outside

The resolver, the configuration file, the TLS files and the clock, as `src/main.cpp`,
`src/net/server.cpp` and `src/routing/router.cpp` use them, and the objects they create.
`ambient` is that outside at one moment: it has the shared `BackendState` objects with
their atomics, and its surroundings have the files on disk, each in one version.
`overTime` lets the surroundings be others at every call.
-/

namespace PoolLb

open Interaction

/-- What a call of `getaddrinfo` is for.  Every call of one routing table is a lookup of
its own, so the resolver may answer each as it likes. -/
inductive Lookup where
  | mining (pool backend : String) (endpoint : Endpoint)
  | health (pool backend : String) (endpoint : Endpoint)
  | source (host : String)
  | listener (name : String) (endpoint : Endpoint)
deriving DecidableEq

inductive ServiceCall where
  | getaddrinfo (lookup : Lookup)
  /-- `make_shared<BackendState>`. -/
  | newBackend
  /-- The configuration file, read as YAML. -/
  | readConfig
  | getrlimit
  /-- `SSL_CTX_new`. -/
  | newContext
  | useCertificateChainFile (file : String)
  | usePrivateKeyFile (file : String)
  | checkPrivateKey (certificate privateKey : Nat)
  /-- `certificate_expiry_timestamp_seconds`. -/
  | certificateExpiry (certificate : Nat)
  | stat (file : String)
  /-- `reload_requested.exchange(false)`. -/
  | reloadRequested
  | now
deriving DecidableEq

/-- The answers.  A file is answered by its version, and `none` is a failed call. -/
def ServiceCall.Answer : ServiceCall → Type
  | .getaddrinfo _ => Except String (List AddrInfo)
  | .newBackend => Nat
  | .readConfig => Except String ServiceConfig
  | .getrlimit => Option (Option Nat)
  | .newContext => Option Nat
  | .useCertificateChainFile _ => Option Nat
  | .usePrivateKeyFile _ => Option Nat
  | .checkPrivateKey _ _ => Bool
  | .certificateExpiry _ => Except String Int
  | .stat _ => Option (Int × Int)
  | .reloadRequested => Bool
  | .now => Nat

def serviceCalls : Signature := ⟨ServiceCall, ServiceCall.Answer⟩

/-- The atomics of a `BackendState`. -/
structure BackendCounters where
  healthy : Bool := false
  consecutiveSuccesses : Int := 0
  consecutiveFailures : Int := 0
  activeConnections : Nat := 0
  connectionAttempts : Nat := 0
  connectionErrors : Nat := 0
deriving DecidableEq

/-- The `BackendState` objects that were ever created, by number. -/
structure BackendHeap where
  allocated : Nat := 0
  counters : Nat → BackendCounters := fun _ => {}

/-- A new object. -/
def BackendHeap.grown (heap : BackendHeap) : BackendHeap where
  allocated := heap.allocated + 1
  counters := Function.update heap.counters heap.allocated {}

/-- One heap comes after the other: objects were added, and none was touched. -/
structure BackendHeap.Grew (heap heap' : BackendHeap) : Prop where
  allocated : heap.allocated ≤ heap'.allocated
  counters : ∀ ref, ref < heap.allocated → heap'.counters ref = heap.counters ref

theorem BackendHeap.Grew.refl (heap : BackendHeap) : heap.Grew heap := ⟨le_refl _, fun _ _ => rfl⟩

theorem BackendHeap.Grew.trans {heap mid heap' : BackendHeap} (h : heap.Grew mid)
    (h' : mid.Grew heap') :
    heap.Grew heap' where
  allocated := h.allocated.trans h'.allocated
  counters ref href :=
    (h'.counters ref (href.trans_le h.allocated)).trans (h.counters ref href)

/-- A new object changes none of the old ones. -/
theorem BackendHeap.grew_grown (heap : BackendHeap) : heap.Grew heap.grown where
  allocated := Nat.le_succ _
  counters _ href := Function.update_of_ne (Nat.ne_of_lt href) _ _

/-- What the outside is like. -/
structure Ambient where
  heap : BackendHeap := {}
  /-- The number of TLS contexts that were ever created. -/
  contexts : Nat := 0

/-- The world after some lookups: only the heap may have grown. -/
def Ambient.Later (w w' : Ambient) : Prop :=
  w.heap.Grew w'.heap ∧ w' = { w with heap := w'.heap }

theorem Ambient.Later.refl (w : Ambient) : Ambient.Later w w := ⟨.refl _, rfl⟩

theorem Ambient.Later.trans {w mid w' : Ambient} (h : Ambient.Later w mid)
    (h' : Ambient.Later mid w') : Ambient.Later w w' := by
  refine ⟨h.1.trans h'.1, ?_⟩
  rw [h'.2, h.2]

/-- What the outside has for the main thread while it works. -/
structure Surroundings where
  resolver : Lookup → Except String (List AddrInfo)
  config : Except String ServiceConfig
  /-- The version of each file. -/
  disk : String → Nat := fun _ => 0
  /-- Modification time and size of a version of a file, unless it is missing. -/
  stamps : Nat → Option (Int × Int)
  /-- When a version of a certificate expires, if that can be read. -/
  expiries : Nat → Except String Int := fun _ => .ok 0

/-- The outside, with given surroundings.  Reading a TLS file may fail at any time. -/
def ambient (around : Surroundings) : World serviceCalls Ambient where
  requires _ _ := True
  allows w c := match c with
    | .getaddrinfo lookup => fun answer => answer = around.resolver lookup
    | .newBackend => fun ref => ref = w.heap.allocated
    | .readConfig => fun answer => answer = around.config
    | .newContext => fun answer => answer = none ∨ answer = some w.contexts
    | .useCertificateChainFile file => fun answer => answer = none ∨ answer = some (around.disk file)
    | .usePrivateKeyFile file => fun answer => answer = none ∨ answer = some (around.disk file)
    | .certificateExpiry certificate => fun answer => answer = around.expiries certificate
    | .stat file => fun answer => answer = around.stamps (around.disk file)
    | _ => fun _ => True
  after w c := match c with
    | .newBackend => fun _ => { w with heap := w.heap.grown }
    | .newContext => fun answer =>
        if answer.isSome then { w with contexts := w.contexts + 1 } else w
    | _ => fun _ => w

/-- The outside while its surroundings change: others at every call. -/
def overTime (around : Nat → Surroundings) : World serviceCalls (Nat × Ambient) :=
  .overTime fun moment => ambient (around moment)

/-- Code of the main thread: it works on a state of its own and may throw. -/
abbrev Setup (σ α : Type) := Handler serviceCalls σ String α

/-- An outside in which everything works: the answers it gives. -/
def Surroundings.answer (around : Surroundings) (w : Ambient) : (c : ServiceCall) → c.Answer
  | .getaddrinfo lookup => around.resolver lookup
  | .newBackend => w.heap.allocated
  | .readConfig => around.config
  | .getrlimit => some none
  | .newContext => some w.contexts
  | .useCertificateChainFile file => some (around.disk file)
  | .usePrivateKeyFile file => some (around.disk file)
  | .checkPrivateKey _ _ => true
  | .certificateExpiry certificate => around.expiries certificate
  | .stat file => around.stamps (around.disk file)
  | .reloadRequested => false
  | .now => Nat.zero

/-- The answers of the surroundings are allowed in them. -/
theorem Surroundings.answer_allowed (around : Surroundings) (w : Ambient) (c : ServiceCall) :
    (ambient around).allows w c (around.answer w c) := by
  cases c with
  | getaddrinfo lookup => exact rfl
  | newBackend => exact rfl
  | readConfig => exact rfl
  | newContext => exact .inr rfl
  | useCertificateChainFile file => exact .inr rfl
  | usePrivateKeyFile file => exact .inr rfl
  | certificateExpiry certificate => exact rfl
  | stat file => exact rfl
  | _ => trivial

end PoolLb
