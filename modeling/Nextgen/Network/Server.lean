import Mathlib.Algebra.Group.Nat.Defs
import Mathlib.Data.Int.Notation
import Mathlib.Data.Nat.Notation
import Mathlib.Logic.Function.Basic
import Nextgen.Lib.Transition

/-!
# The socket server

`setup_network_module` picks a port, binds a socket for IPv4 and one for IPv6, and starts a
thread that starts a second one.  Each thread listens on its socket and accepts connections one
at a time.  The sockets of the resource module are connected to them by callers that do not wait
for the server, so that a connection may be tried before anybody listens, and nobody notices when
a thread ends.
-/

open Transition

namespace Network

/-! ### The server and its clients -/

/-- The two sockets of the server, each with a thread. -/
inductive Family where
  | ipv4
  | ipv6
  deriving DecidableEq, Repr

/-- The next call of a thread of the server. -/
inductive Pc where
  | notStarted
  /-- `pthread_create` in `start_thread`. -/
  | spawn
  | listen
  | accept
  | ended
  deriving DecidableEq, Repr

/-- A socket of the server with its thread and the connections to it: `pending` are those that
wait to be accepted, and `accepted` those that were accepted and closed. -/
structure Channel (γ : Type) where
  bound : Option ℕ
  pc : Pc
  listening : Bool
  pending : List γ
  accepted : List γ

structure State (γ : Type) where
  ssPort : ℕ
  channel : Family → Channel γ

/-- What the calls of the setup give: the random offset, whether `socket` and `bind` succeed, and
whether there is a thread. -/
structure Setup where
  offset : Option { n : ℕ // n ≤ 10000 }
  socketOk : Family → Bool
  bindOk : Family → Bool
  created : Bool

/-- A thread of the server makes its next call, or a client connects. -/
inductive Action (γ : Type) where
  | server (f : Family) (ok : Bool)
  | connect (f : Family) (x : γ)
  deriving DecidableEq

/-- The length of the queue that `listen` asks for. -/
def BACKLOG : ℕ := 1024

/-- The port that is read from the two bytes that `htons` gives for a number of 32 bits. -/
def htons (port : ℕ) : ℕ := port % 2 ^ 16

/-- The port in the address of the server, and in that of its clients. -/
def portOf (ssPort : ℕ) : Family → ℕ
  | .ipv4 => htons ssPort
  | .ipv6 => htons (ssPort + 1)

section Functions

variable {γ : Type}

/-- Replace a channel. -/
def State.set (s : State γ) (f : Family) (c : Channel γ) : State γ :=
  { s with channel := Function.update s.channel f c }

/-- A server that has not been set up. -/
def State.init : State γ :=
  ⟨0, fun _ => ⟨none, .notStarted, false, [], []⟩⟩

/-- `pick_random_port` -/
def pickRandomPort (c : Setup) (s : State γ) : Option (State γ) :=
  c.offset.map fun offset => { s with ssPort := 1200 + offset }

/-- `setup_ipv4_tcp_server` and `setup_ipv6_tcp_server` -/
def setupTcpServer (c : Setup) (s : State γ) (f : Family) : Option (State γ) :=
  if c.socketOk f && c.bindOk f then
    some (s.set f { s.channel f with bound := some (portOf s.ssPort f) })
  else none

/-- `setup_network_module`, with the server after it.  The errors of `pthread_create` are greater
than zero, and are not noticed. -/
def setupNetworkModule (c : Setup) : ℤ × State γ :=
  match pickRandomPort c .init with
  | none => (-1, .init)
  | some s =>
      match setupTcpServer c s .ipv4 with
      | none => (-1, s)
      | some s =>
          match setupTcpServer c s .ipv6 with
          | none => (-1, s)
          | some s =>
              (0, if c.created then s.set .ipv4 { s.channel .ipv4 with pc := .spawn } else s)

/-- The next call of a thread.  Its loop has no other end than a failure, since `stop` is never
set. -/
def Channel.serve (c : Channel γ) (ok : Bool) : Option (Channel γ) :=
  match c.pc with
  | .notStarted | .ended => none
  | .spawn => some { c with pc := .listen }
  | .listen =>
      some (if ok then { c with pc := .accept, listening := true } else { c with pc := .ended })
  | .accept =>
      if ok then
        match c.pending with
        | [] => none
        | x :: rest =>
            some { c with pc := .listen, pending := rest, accepted := c.accepted ++ [x] }
      else some { c with pc := .ended }

/-- Somebody listens at a port. -/
def Channel.Listens (c : Channel γ) (port : ℕ) : Prop :=
  c.listening = true ∧ c.bound = some port

instance (c : Channel γ) (port : ℕ) : Decidable (c.Listens port) :=
  inferInstanceAs (Decidable (_ ∧ _))

/-- `connect` of `connect_ipv4` and `connect_ipv6`.  It is refused if nobody listens, and waits
while the queue is full. -/
def Channel.connect (c : Channel γ) (port : ℕ) (x : γ) : Option (Channel γ) :=
  if c.Listens port then
    if c.pending.length < BACKLOG then some { c with pending := c.pending ++ [x] } else none
  else some c

/-- A step.  The first thread starts the second, unless `pthread_create` fails. -/
def step (s : State γ) : Action γ → Option (State γ)
  | .server f ok =>
      let spawned :=
        if (s.channel f).pc = .spawn ∧ ok = true then
          s.set .ipv6 { s.channel .ipv6 with pc := .listen }
        else s
      ((s.channel f).serve ok).map (spawned.set f)
  | .connect f x => ((s.channel f).connect (portOf s.ssPort f) x).map (s.set f)

/-- A call of `connect` that fails. -/
def Refused (s : State γ) : Action γ → Prop
  | .connect f _ => ¬ (s.channel f).Listens (portOf s.ssPort f)
  | .server _ _ => False

end Functions

/-! ### Channels -/

namespace State

variable {γ : Type} (s : State γ) (f : Family) (c : Channel γ)

theorem set_channel_self :
  (s.set f c).channel f = c
  := by
  simp only [set, Function.update_self]

theorem set_channel_of_ne {g : Family} (h : g ≠ f) :
  (s.set f c).channel g = s.channel g
  := by
  simp only [set, Function.update_of_ne h]

/-- What holds of all channels and of a new one holds of all channels with the new one. -/
theorem forall_set {s : State γ} {f : Family} {c : Channel γ} {P : Family → Channel γ → Prop}
    (h : ∀ g, P g (s.channel g)) (hc : P f c) :
  ∀ g, P g ((s.set f c).channel g)
  := by
  intro g
  by_cases hg : g = f
  · subst hg
    rw [set_channel_self]
    exact hc
  · rw [set_channel_of_ne s f c hg]
    exact h g

end State

/-! ### The steps of a channel -/

section Steps

variable {γ : Type} {s s' : State γ}

/-- A call of `connect` adds a connection that waits, or nothing. -/
theorem connect_frame {c c' : Channel γ} {port : ℕ} {x : γ} (h : c.connect port x = some c') :
  ∃ pending, c' = { c with pending }
  := by
  rw [Channel.connect] at h
  split at h
  · obtain ⟨-, h⟩ := Option.ite_none_right_eq_some.mp h
    cases h
    exact ⟨_, rfl⟩
  · cases h
    exact ⟨_, rfl⟩

/-- What a step may do to the channel of a family. -/
inductive Moves (s : State γ) : Family → Action γ → Channel γ → Prop where
  | serve {f : Family} {ok : Bool} {c : Channel γ} :
      (s.channel f).serve ok = some c → Moves s f (.server f ok) c
  /-- The second thread is started. -/
  | started :
      (s.channel .ipv4).pc = .spawn →
      Moves s .ipv6 (.server .ipv4 true) { s.channel .ipv6 with pc := .listen }
  /-- The other thread makes a call, or a client connects. -/
  | kept {f : Family} {a : Action γ} (pending : List γ) :
      (∀ ok, a ≠ .server f ok) → Moves s f a { s.channel f with pending }

theorem step_moves {a : Action γ} (hstep : step s a = some s') :
  s'.ssPort = s.ssPort ∧ ∀ f, Moves s f a (s'.channel f)
  := by
  cases a with
  | server g ok =>
      obtain ⟨c, hserve, rfl⟩ := Option.map_eq_some_iff.mp hstep
      use by split <;> rfl
      intro f
      by_cases hf : f = g
      · subst hf
        rw [State.set_channel_self]
        exact .serve hserve
      · have hother : ∀ ok', Action.server g ok ≠ (.server f ok' : Action γ) := by
          rintro ok' ⟨⟩
          exact hf rfl
        rw [State.set_channel_of_ne _ _ _ hf]
        split
        case isTrue h =>
          obtain ⟨hspawn, rfl⟩ := h
          cases f with
          | ipv4 =>
              rw [State.set_channel_of_ne _ _ _ (by decide)]
              exact .kept _ hother
          | ipv6 =>
              cases g with
              | ipv4 =>
                  rw [State.set_channel_self]
                  exact .started hspawn
              | ipv6 => exact absurd rfl hf
        case isFalse => exact .kept _ hother
  | connect g x =>
      obtain ⟨c, hconnect, rfl⟩ := Option.map_eq_some_iff.mp hstep
      use rfl
      intro f
      by_cases hf : f = g
      · subst hf
        obtain ⟨pending, rfl⟩ := connect_frame hconnect
        rw [State.set_channel_self]
        exact .kept pending (by rintro _ ⟨⟩)
      · rw [State.set_channel_of_ne _ _ _ hf]
        exact .kept _ (by rintro _ ⟨⟩)

/-- A call of a thread leaves the port, and a thread that listens does so from then on.  It does
not accept before it listens, and does not start another thread a second time. -/
structure Serves (c c' : Channel γ) : Prop where
  bound : c'.bound = c.bound
  listening : c.listening = true → c'.listening = true
  accept : c'.pc = .accept → c'.listening = true
  spawn : c'.pc ≠ .spawn

theorem serves_of_serve {c c' : Channel γ} {ok : Bool} (h : c.serve ok = some c') :
  Serves c c'
  := by
  rw [Channel.serve] at h
  split at h
  case h_1 | h_2 => cases h
  case h_3 =>
    cases h
    exact ⟨rfl, id, by rintro ⟨⟩, by rintro ⟨⟩⟩
  case h_4 =>
    cases h
    cases ok with
    | true => exact ⟨rfl, fun _ => rfl, fun _ => rfl, by rintro ⟨⟩⟩
    | false => exact ⟨rfl, id, by rintro ⟨⟩, by rintro ⟨⟩⟩
  case h_5 =>
    split at h
    · split at h
      · cases h
      · cases h
        exact ⟨rfl, id, by rintro ⟨⟩, by rintro ⟨⟩⟩
    · cases h
      exact ⟨rfl, id, by rintro ⟨⟩, by rintro ⟨⟩⟩

/-- Only a thread that was started and has not ended makes a call. -/
theorem active_of_serve {c c' : Channel γ} {ok : Bool} (h : c.serve ok = some c') :
  c.pc ≠ .notStarted ∧ c.pc ≠ .ended
  := by
  constructor <;> intro hpc <;> simp only [Channel.serve, hpc, reduceCtorEq] at h

/-- A step of the server or of a client leaves the port, and who listens does so from then on. -/
theorem step_frame {a : Action γ} (hstep : step s a = some s') (f : Family) :
  s'.ssPort = s.ssPort ∧ (s'.channel f).bound = (s.channel f).bound ∧
    ((s.channel f).listening = true → (s'.channel f).listening = true)
  := by
  obtain ⟨hport, hmoves⟩ := step_moves hstep
  use hport
  have hf := hmoves f
  generalize s'.channel f = c at hf
  cases hf with
  | serve hserve => exact ⟨(serves_of_serve hserve).bound, (serves_of_serve hserve).listening⟩
  | started _ => exact ⟨rfl, id⟩
  | kept _ _ => exact ⟨rfl, id⟩

/-- No step leads a thread to the start of the second one. -/
theorem step_spawn {a : Action γ} (hstep : step s a = some s') (f : Family)
    (hspawn : (s'.channel f).pc = .spawn) :
  (s.channel f).pc = .spawn
  := by
  have hf := (step_moves hstep).2 f
  generalize s'.channel f = c at hf hspawn
  cases hf with
  | serve hserve => exact absurd hspawn (serves_of_serve hserve).spawn
  | started _ => cases hspawn
  | kept _ _ => exact hspawn

end Steps

/-! ### After the setup -/

section Ready

variable {γ : Type} {s s' : State γ}

/-- There is no thread. -/
def Idle (s : State γ) : Prop :=
  ∀ f, (s.channel f).pc = .notStarted ∧ (s.channel f).listening = false

/-- Either both sockets are bound to the ports that the clients use, or there is no thread.  The
second thread is not started before the first one does it, and a thread that accepts listens. -/
structure Ready (s : State γ) : Prop where
  bound : (∀ f, (s.channel f).bound = some (portOf s.ssPort f)) ∨ Idle s
  spawn : ∀ f, (s.channel f).pc = .spawn → (s.channel .ipv6).pc = .notStarted
  accept : ∀ f, (s.channel f).pc = .accept → (s.channel f).listening = true

theorem step_bound {a : Action γ} (h : Ready s) (hstep : step s a = some s') :
  (∀ f, (s'.channel f).bound = some (portOf s'.ssPort f)) ∨ Idle s'
  := by
  rcases h.bound with hbound | hidle
  · left
    intro f
    obtain ⟨hport, hsame, -⟩ := step_frame hstep f
    rw [hport, hsame, hbound f]
  · right
    intro f
    have hf := (step_moves hstep).2 f
    generalize s'.channel f = c at hf
    cases hf with
    | serve hserve => exact absurd (hidle f).1 (active_of_serve hserve).1
    | started hspawn => cases (hidle .ipv4).1.symm.trans hspawn
    | kept _ _ => exact hidle f

theorem step_notStarted {a : Action γ} (h : Ready s) (hstep : step s a = some s') (f : Family)
    (hspawn : (s'.channel f).pc = .spawn) :
  (s'.channel .ipv6).pc = .notStarted
  := by
  have hbefore := step_spawn hstep f hspawn
  have hnot := h.spawn f hbefore
  obtain ⟨-, hmoves⟩ := step_moves hstep
  have hf := hmoves f
  have hipv6 := hmoves .ipv6
  generalize s'.channel .ipv6 = c at hipv6
  cases hipv6 with
  | serve hserve => exact absurd hnot (active_of_serve hserve).1
  | started _ =>
      -- the first thread goes on when it has started the second one
      generalize s'.channel f = c at hf hspawn
      cases hf with
      | serve hserve => exact absurd hspawn (serves_of_serve hserve).spawn
      | started _ => cases hspawn
      | kept _ hother =>
          cases f with
          | ipv4 => exact absurd rfl (hother true)
          | ipv6 => cases hnot.symm.trans hbefore
  | kept _ _ => exact hnot

theorem step_accept {a : Action γ} (h : Ready s) (hstep : step s a = some s') (f : Family)
    (hpc : (s'.channel f).pc = .accept) :
  (s'.channel f).listening = true
  := by
  have hf := (step_moves hstep).2 f
  generalize s'.channel f = c at hf hpc
  cases hf with
  | serve hserve => exact (serves_of_serve hserve).accept hpc
  | started _ => cases hpc
  | kept _ _ => exact h.accept f hpc

theorem step_ready {a : Action γ} (h : Ready s) (hstep : step s a = some s') :
  Ready s'
  := ⟨step_bound h hstep, step_notStarted h hstep, step_accept h hstep⟩

/-- After the setup a call of `connect` is refused if and only if nobody listens. -/
theorem refused_iff (h : Ready s) (f : Family) (x : γ) :
  Refused s (.connect f x) ↔ (s.channel f).listening = false
  := by
  rw [Refused, Channel.Listens, ← Bool.not_eq_true]
  rcases h.bound with hbound | hidle
  · simp only [hbound f, and_true]
  · simp [(hidle f).2]

/-- A socket that was set up is bound to the port of its family, and the other one stays as it
was. -/
theorem setupTcpServer_bound {c : Setup} {f : Family} (hsetup : setupTcpServer c s f = some s') :
  s'.ssPort = s.ssPort ∧ (s'.channel f).bound = some (portOf s.ssPort f) ∧
    ∀ g ≠ f, s'.channel g = s.channel g
  := by
  obtain ⟨-, hsetup⟩ := Option.ite_none_right_eq_some.mp hsetup
  cases hsetup
  refine ⟨rfl, ?_, ?_⟩
  · rw [State.set_channel_self]
  · intro g hg
    rw [State.set_channel_of_ne _ _ _ hg]

theorem setupTcpServer_idle {c : Setup} {f : Family} (h : Idle s)
    (hsetup : setupTcpServer c s f = some s') :
  Idle s'
  := by
  obtain ⟨-, hsetup⟩ := Option.ite_none_right_eq_some.mp hsetup
  cases hsetup
  exact State.forall_set (P := fun _ c => c.pc = .notStarted ∧ c.listening = false) h (h f)

/-- The server is ready, nobody listens yet, and no thread has ended. -/
structure Fresh (s : State γ) : Prop where
  ready : Ready s
  silent : ∀ f, (s.channel f).listening = false
  running : ∀ f, (s.channel f).pc ≠ .ended

theorem Idle.fresh (h : Idle s) :
  Fresh s
  := by
  refine ⟨⟨.inr h, fun _ _ => (h .ipv6).1, ?_⟩, fun f => (h f).2, ?_⟩
  · intro f hpc
    cases (h f).1.symm.trans hpc
  · intro f hpc
    cases (h f).1.symm.trans hpc

/-- The first thread is created when both sockets are bound. -/
theorem Idle.fresh_set (h : Idle s) (hbound : ∀ f, (s.channel f).bound = some (portOf s.ssPort f)) :
  Fresh (s.set .ipv4 { s.channel .ipv4 with pc := .spawn })
  := by
  refine ⟨⟨.inl ?_, ?_, ?_⟩, ?_, ?_⟩
  · exact State.forall_set (P := fun f c => c.bound = some (portOf s.ssPort f)) hbound
      (hbound .ipv4)
  · intro _ _
    rw [State.set_channel_of_ne _ _ _ (by decide)]
    exact (h .ipv6).1
  · apply State.forall_set (P := fun _ c => c.pc = .accept → c.listening = true)
    · exact h.fresh.ready.accept
    · rintro ⟨⟩
  · exact State.forall_set (P := fun _ c => c.listening = false) h.fresh.silent (h .ipv4).2
  · apply State.forall_set (P := fun _ c => c.pc ≠ .ended) h.fresh.running
    rintro ⟨⟩

theorem setup_fresh (c : Setup) :
  Fresh (setupNetworkModule c : ℤ × State γ).2
  := by
  have hinit : ∀ port, Idle (⟨port, State.init.channel⟩ : State γ) := fun _ _ => ⟨rfl, rfl⟩
  rw [setupNetworkModule]
  split
  · exact (hinit 0).fresh
  · rename_i s₁ hport
    obtain ⟨offset, -, rfl⟩ := Option.map_eq_some_iff.mp hport
    split
    · exact (hinit _).fresh
    · rename_i s₂ hipv4
      have hidle₂ := setupTcpServer_idle (hinit _) hipv4
      obtain ⟨hport₂, hbound₂, -⟩ := setupTcpServer_bound hipv4
      split
      · exact hidle₂.fresh
      · rename_i s₃ hipv6
        have hidle₃ := setupTcpServer_idle hidle₂ hipv6
        obtain ⟨hport₃, hbound₃, hsame₃⟩ := setupTcpServer_bound hipv6
        simp only
        split
        · apply hidle₃.fresh_set
          intro f
          rw [hport₃]
          cases f with
          | ipv4 => rw [hsame₃ .ipv4 (by decide), hbound₂, hport₂]
          | ipv6 => exact hbound₃
        · exact hidle₃.fresh

end Ready

/-! ### When nothing is accepted any more -/

section Accepting

variable {γ : Type} {s s' : State γ} {f : Family}

/-- No connection of a family is accepted any more, whatever the threads and the clients do. -/
def NeverAccepts (s : State γ) (f : Family) : Prop :=
  ∀ later s', run step s later = some s' → (s'.channel f).accepted = (s.channel f).accepted

/-- The thread of a family has not been started, and nobody is about to start it. -/
def Unstarted (s : State γ) (f : Family) : Prop :=
  (s.channel f).pc = .notStarted ∧ (s.channel .ipv4).pc ≠ .spawn

/-- A call of `listen` or `accept` by the thread of a family that fails. -/
def CallFails (f : Family) (s : State γ) (a : Action γ) : Prop :=
  a = .server f false ∧ ((s.channel f).pc = .listen ∨ (s.channel f).pc = .accept)

instance [DecidableEq γ] (s : State γ) (a : Action γ) : Decidable (CallFails f s a) :=
  inferInstanceAs (Decidable (_ ∧ _))

/-- A thread ends by a call that fails, and only then. -/
theorem serve_ended_iff {c c' : Channel γ} {ok : Bool} (h : c.serve ok = some c') :
  c'.pc = .ended ↔ ok = false ∧ (c.pc = .listen ∨ c.pc = .accept)
  := by
  rw [Channel.serve] at h
  split at h
  case h_1 | h_2 => cases h
  case h_3 hpc =>
    cases h
    simp [hpc]
  case h_4 hpc =>
    cases h
    cases ok <;> simp [hpc]
  case h_5 hpc =>
    cases ok with
    | true =>
        simp only [if_true] at h
        split at h
        · cases h
        · cases h
          simp
    | false =>
        cases h
        simp [hpc]

theorem step_running_iff {a : Action γ} (hs : Ready s) (hstep : step s a = some s') :
  (s'.channel f).pc ≠ .ended ↔ (s.channel f).pc ≠ .ended ∧ ¬ CallFails f s a
  := by
  have hf := (step_moves hstep).2 f
  generalize s'.channel f = c at hf
  cases hf with
  | @serve _ ok _ hserve =>
      rw [Ne, serve_ended_iff hserve]
      simp [CallFails, (active_of_serve hserve).2]
  | started hspawn => simp [CallFails, hs.spawn _ hspawn]
  | kept _ hother => simp [CallFails, hother false]

/-- The thread of a family has ended, or will not be started. -/
def Stopped (s : State γ) (f : Family) : Prop :=
  (s.channel f).pc = .ended ∨ Unstarted s f

/-- A family without a thread stays without, and nothing is accepted.  Who has listened still
does. -/
theorem step_stopped {a : Action γ} (hs : Ready s) (h : Stopped s f)
    (hstep : step s a = some s') :
  Stopped s' f ∧ (s'.channel f).accepted = (s.channel f).accepted ∧
    (s'.channel f).listening = (s.channel f).listening
  := by
  have hstopped : (s'.channel f).pc = (s.channel f).pc → Stopped s' f := by
    intro hpc
    apply h.imp
    · exact hpc.trans
    · rintro ⟨hnot, hspawn⟩
      exact ⟨hpc.trans hnot, fun h => hspawn (step_spawn hstep .ipv4 h)⟩
  have hf := (step_moves hstep).2 f
  generalize s'.channel f = c at hf hstopped
  cases hf with
  | serve hserve =>
      rcases h with hpc | ⟨hpc, -⟩
      · exact absurd hpc (active_of_serve hserve).2
      · exact absurd hpc (active_of_serve hserve).1
  | started hspawn =>
      rcases h with hpc | ⟨-, hnot⟩
      · cases (hs.spawn _ hspawn).symm.trans hpc
      · exact absurd hspawn hnot
  | kept _ _ => exact ⟨hstopped rfl, rfl, rfl⟩

theorem run_stopped {later : List (Action γ)} (hs : Ready s) (h : Stopped s f)
    (hrun : run step s later = some s') :
  (s'.channel f).accepted = (s.channel f).accepted ∧
    (s'.channel f).listening = (s.channel f).listening
  := by
  have hinvariant : Ready s' ∧ Stopped s' f ∧
      (s'.channel f).accepted = (s.channel f).accepted ∧
      (s'.channel f).listening = (s.channel f).listening := by
    apply run_invariant_of_step (I := fun t => Ready t ∧ Stopped t f ∧
      (t.channel f).accepted = (s.channel f).accepted ∧
      (t.channel f).listening = (s.channel f).listening) _ ⟨hs, h, rfl, rfl⟩ hrun
    rintro t a t' ⟨ht, hstopped, haccepted, hlistening⟩ hstep
    obtain ⟨hstopped', haccepted', hlistening'⟩ := step_stopped ht hstopped hstep
    exact ⟨step_ready ht hstep, hstopped', haccepted'.trans haccepted,
      hlistening'.trans hlistening⟩
  exact hinvariant.2.2

/-- If nothing is accepted any more, this is so after every step. -/
theorem NeverAccepts.step {a : Action γ} (h : NeverAccepts s f) (hstep : step s a = some s') :
  NeverAccepts s' f
  := by
  have hrun : ∀ later t, run Network.step s' later = some t →
      (t.channel f).accepted = (s.channel f).accepted := by
    intro later t hlater
    apply h (a :: later)
    rw [run_cons, hstep, Option.bind_some, hlater]
  intro later t hlater
  rw [hrun later t hlater, hrun [] s' rfl]

/-- A call of a thread that is past the start of the second one is a step of its channel. -/
theorem step_server {c : Channel γ} {ok : Bool} (hpc : (s.channel f).pc ≠ .spawn)
    (hserve : (s.channel f).serve ok = some c) :
  step s (.server f ok) = some (s.set f c)
  := by
  simp only [step, hpc, hserve, false_and, if_false, Option.map_some]

theorem not_neverAccepts_of_pending {x : γ} {rest : List γ} (hpc : (s.channel f).pc = .accept)
    (hpending : (s.channel f).pending = x :: rest) :
  ¬ NeverAccepts s f
  := by
  intro h
  have hserve : (s.channel f).serve true = some { s.channel f with
      pc := .listen, pending := rest, accepted := (s.channel f).accepted ++ [x] } := by
    simp only [Channel.serve, hpc, hpending, if_true]
  have hstep := step_server (by rw [hpc]; decide) hserve
  have hsame := h [.server f true] _ (by rw [run_cons, hstep]; rfl)
  rw [State.set_channel_self] at hsame
  simp at hsame

theorem not_neverAccepts_of_accept [Nonempty γ]
    (hbound : (s.channel f).bound = some (portOf s.ssPort f)) (hpc : (s.channel f).pc = .accept)
    (hlistening : (s.channel f).listening = true) :
  ¬ NeverAccepts s f
  := by
  intro h
  cases hpending : (s.channel f).pending with
  | cons x rest => exact not_neverAccepts_of_pending hpc hpending h
  | nil =>
      -- a client comes, and is accepted
      obtain ⟨x⟩ := ‹Nonempty γ›
      have hstep : step s (.connect f x) = some (s.set f { s.channel f with pending := [x] }) := by
        have hroom : ([] : List γ).length < BACKLOG := Nat.zero_lt_succ 1023
        have hlistens : (s.channel f).Listens (portOf s.ssPort f) := ⟨hlistening, hbound⟩
        simp only [step, Channel.connect, if_pos hlistens, hpending, if_pos hroom, List.nil_append,
          Option.map_some]
      have hwaits : ((s.set f { s.channel f with pending := [x] }).channel f).pending = [x] := by
        rw [State.set_channel_self]
      refine not_neverAccepts_of_pending ?_ hwaits (h.step hstep)
      rw [State.set_channel_self]
      exact hpc

theorem not_neverAccepts_of_listen [Nonempty γ]
    (hbound : (s.channel f).bound = some (portOf s.ssPort f)) (hpc : (s.channel f).pc = .listen) :
  ¬ NeverAccepts s f
  := by
  intro h
  have hserve : (s.channel f).serve true =
      some { s.channel f with pc := .accept, listening := true } := by
    simp only [Channel.serve, hpc, if_true]
  have hstep := step_server (by rw [hpc]; decide) hserve
  refine not_neverAccepts_of_accept ?_ ?_ ?_ (h.step hstep)
  · rw [State.set_channel_self]
    exact hbound
  · rw [State.set_channel_self]
  · rw [State.set_channel_self]

/-- When the first thread has started the second one, both listen next. -/
theorem exists_step_spawn (hpc : (s.channel .ipv4).pc = .spawn) :
  ∃ s', step s (.server .ipv4 true) = some s' ∧ ∀ f, (s'.channel f).pc = .listen
  := by
  refine ⟨_, by simp only [step, Channel.serve, hpc, and_self, if_true, Option.map_some]; rfl, ?_⟩
  intro f
  cases f with
  | ipv4 => rw [State.set_channel_self]
  | ipv6 => rw [State.set_channel_of_ne _ _ _ (by decide), State.set_channel_self]

theorem stopped_of_neverAccepts [Nonempty γ] (hs : Ready s) (h : NeverAccepts s f) :
  Stopped s f
  := by
  have hbound : ∀ {t : State γ}, Ready t → (t.channel f).pc ≠ .notStarted →
      (t.channel f).bound = some (portOf t.ssPort f) := by
    intro t ht hpc
    rcases ht.bound with hbound | hidle
    · exact hbound f
    · exact absurd (hidle f).1 hpc
  by_cases hspawn : (s.channel .ipv4).pc = .spawn
  · obtain ⟨s', hstep, hlisten⟩ := exists_step_spawn hspawn
    have hready := step_ready hs hstep
    apply absurd (h.step hstep)
    exact not_neverAccepts_of_listen (hbound hready (by rw [hlisten f]; decide)) (hlisten f)
  · cases hpc : (s.channel f).pc with
    | notStarted => exact .inr ⟨hpc, hspawn⟩
    | spawn =>
        cases f with
        | ipv4 => exact absurd hpc hspawn
        | ipv6 => cases (hs.spawn .ipv6 hpc).symm.trans hpc
    | listen =>
        apply absurd h
        exact not_neverAccepts_of_listen (hbound hs (by rw [hpc]; decide)) hpc
    | accept =>
        apply absurd h
        exact not_neverAccepts_of_accept (hbound hs (by rw [hpc]; decide)) hpc (hs.accept f hpc)
    | ended => exact .inl hpc

/-- Under every interleaving of the threads of the server and its clients, no connection of a
family is accepted any more if and only if the thread of the family will not be started or one of
its calls of `listen` and `accept` has failed.  The clients do not notice: their calls of `connect`
are refused from then on if and only if they were before. -/
theorem never_accepts_iff [Nonempty γ] (c : Setup) {actions : List (Action γ)} {s : State γ}
    (hrun : run step (setupNetworkModule c).2 actions = some s) (f : Family) :
  (NeverAccepts s f ↔ Unstarted s f ∨
    ¬ AllSteps step (fun s a => ¬ CallFails f s a) (setupNetworkModule c).2 actions) ∧
  (NeverAccepts s f → ∀ later s', run step s later = some s' →
    ∀ x, Refused s' (.connect f x) ↔ Refused s (.connect f x))
  := by
  have hfresh : Fresh (setupNetworkModule c : ℤ × State γ).2 := setup_fresh c
  have hready := run_invariant_of_step step_ready hfresh.ready hrun
  have hended : (s.channel f).pc = .ended ↔
      ¬ AllSteps step (fun s a => ¬ CallFails f s a) (setupNetworkModule c).2 actions := by
    have hpc := run_iff_allSteps (P := fun s => (s.channel f).pc ≠ .ended) step_ready
      step_running_iff hfresh.ready hrun
    rw [and_iff_right (hfresh.running f)] at hpc
    rw [← hpc, Decidable.not_not]
  constructor
  · rw [← hended, or_comm]
    constructor
    · exact stopped_of_neverAccepts hready
    · intro hstopped later s' hlater
      exact (run_stopped hready hstopped hlater).1
  · intro h later s' hlater x
    have hstopped := stopped_of_neverAccepts hready h
    rw [refused_iff (run_invariant_of_step step_ready hready hlater), refused_iff hready,
      (run_stopped hready hstopped hlater).2]

/-- The calls of the setup succeed. -/
def plainSetup : Setup :=
  ⟨some ⟨0, by decide⟩, fun _ => true, fun _ => true, true⟩

/-- The first thread listens, a client comes, and the call of `accept` fails. -/
def failedAccept : List (Action ℕ) :=
  [.server .ipv4 true, .server .ipv4 true, .connect .ipv4 1, .server .ipv4 false]

/-- After the failure clients still connect, and wait for ever. -/
theorem never_accepts_failedAccept :
  ∃ s, run step (setupNetworkModule plainSetup).2 failedAccept = some s ∧
    (s.channel .ipv4).pending = [1] ∧ NeverAccepts s .ipv4 ∧
    ∀ later s', run step s later = some s' → ∀ x, ¬ Refused s' (.connect .ipv4 x)
  := by
  obtain ⟨s, hrun, hpending, hlistens⟩ : ∃ s,
      run step (setupNetworkModule plainSetup).2 failedAccept = some s ∧
      (s.channel .ipv4).pending = [1] ∧ (s.channel .ipv4).Listens (portOf s.ssPort .ipv4) :=
    ⟨_, rfl, rfl, rfl, rfl⟩
  obtain ⟨hiff, hrefused⟩ := never_accepts_iff plainSetup hrun .ipv4
  have hnever := hiff.mpr (.inr (by decide))
  refine ⟨s, hrun, hpending, hnever, ?_⟩
  intro later s' hlater x
  rw [hrefused hnever later s' hlater x]
  exact not_not_intro hlistens

end Accepting

/-! ### Refused connections -/

section Refused

variable {γ : Type} {s s' : State γ}

/-- A step by which a client of a family connects. -/
def Action.isConnect (f : Family) : Action γ → Bool
  | .connect g _ => g == f
  | .server _ _ => false

theorem Action.eq_connect {a : Action γ} {f : Family} (h : a.isConnect f = true) :
  ∃ x, a = .connect f x
  := by
  cases a with
  | connect g x =>
      cases beq_iff_eq.mp h
      exact ⟨x, rfl⟩
  | server g ok => cases h

/-- Who listens after an initial part of a run listens after the whole of it. -/
theorem listening_of_run {before rest : List (Action γ)} {s₀ s₁ : State γ} {f : Family}
    (hrun : run step s₀ before = some s₁) (hlistening : (s₁.channel f).listening = true)
    (hwhole : run step s₀ (before ++ rest) = some s) :
  (s.channel f).listening = true
  := by
  rw [run_append, hrun, Option.bind_some] at hwhole
  exact run_invariant_of_step (I := fun s => (s.channel f).listening = true)
    (fun hs hstep => (step_frame hstep f).2.2 hs) hlistening hwhole

/-- A call of `connect` right after the setup can be made and is refused. -/
theorem setup_refuses (c : Setup) (f : Family) (x : γ) :
  step (setupNetworkModule c).2 (.connect f x) = some (setupNetworkModule c).2 ∧
    Refused (setupNetworkModule c).2 (.connect f x)
  := by
  have hfresh : Fresh (setupNetworkModule c : ℤ × State γ).2 := setup_fresh c
  have hrefused := (refused_iff hfresh.ready f x).mpr (hfresh.silent f)
  refine ⟨?_, hrefused⟩
  rw [Refused] at hrefused
  simp only [step, Channel.connect, if_neg hrefused, Option.map_some, State.set,
    Function.update_eq_self]

/-- No call of `connect` in a run is refused if and only if for each family the first one comes
after the first successful call of `listen` by the thread of the family.  Nothing in the setup
waits for that: right after it every call can be made, and is refused. -/
theorem none_refused_iff (c : Setup) (actions : List (Action γ)) :
  (AllSteps step (fun s a => ¬ Refused s a) (setupNetworkModule c).2 actions ↔
    ∀ f before x after s, actions = before ++ .connect f x :: after →
      (∀ a ∈ before, a.isConnect f = false) →
      run step (setupNetworkModule c).2 before = some s → (s.channel f).listening = true) ∧
  ∀ f (x : γ), step (setupNetworkModule c).2 (.connect f x) = some (setupNetworkModule c).2 ∧
    Refused (setupNetworkModule c).2 (.connect f x)
  := by
  refine ⟨?_, setup_refuses c⟩
  have hready : ∀ {before s}, run step (setupNetworkModule c).2 before = some s →
      ∀ f (x : γ), Refused s (.connect f x) ↔ (s.channel f).listening = false := by
    intro before s hrun
    exact refused_iff (run_invariant_of_step step_ready (setup_fresh c).ready hrun)
  rw [allSteps_iff_at_run]
  constructor
  · intro h f before x after s hactions _ hrun
    have hnot := h before _ after s hactions hrun
    rw [hready hrun f x, Bool.not_eq_false] at hnot
    exact hnot
  · rintro h before a after s rfl hrun
    cases a with
    | server f ok => exact id
    | connect f x =>
        rw [hready hrun f x, Bool.not_eq_false]
        cases hfind : before.find? (·.isConnect f) with
        | none =>
            apply h f before x after s rfl _ hrun
            simpa using List.find?_eq_none.mp hfind
        | some b =>
            obtain ⟨hb, earlier, later, rfl, hfirst⟩ := List.find?_eq_some_iff_append.mp hfind
            obtain ⟨y, rfl⟩ := Action.eq_connect hb
            obtain ⟨s₁, hrun₁, -⟩ :=
              Option.bind_eq_some_iff.mp ((run_append _ _ _ _).symm.trans hrun)
            apply listening_of_run hrun₁ _ hrun
            apply h f earlier y (later ++ .connect f x :: after) s₁ _ _ hrun₁
            · rw [List.append_assoc, List.cons_append]
            · simpa using hfirst

end Refused

end Network
