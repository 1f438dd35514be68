import Turnloop.Http2.Receive
import Turnloop.Lib.Keyed
import Turnloop.Lib.Trace

/-! The flow control of one endpoint. -/

namespace Turnloop.Http2

open Lib

/-- The part of a stream in flow control; `ended` when the peer sends no more on it. -/
structure Credit where
  send : ℤ
  recv : ℤ
  unreleased : ℕ
  ended : Bool

structure Flow where
  streams : Multiset (ℕ × Credit)
  send : ℤ
  recv : ℤ
  initialSend : ℤ
  peerFrame : ℕ
  acked : Limits × ℤ
  pending : List (List (UInt16 × UInt32))
  limits : Limits
  recvInitial : ℤ
  seen : Set ℕ
  failed : Bool

/-- Said to the peer: DATA, credit for stream `id` or for the connection (`0`), a SETTINGS frame. Heard from
it: credit, two of its settings, DATA, an acknowledgement. -/
inductive Label where
  | sent (id n : ℕ)
  | credited (id n : ℕ)
  | offered (entries : List (UInt16 × UInt32))
  | grew (id n : ℕ)
  | initial (value : ℕ)
  | frameSize (value : ℕ)
  | got (id n : ℕ)
  | acked

namespace Label

def said : Label → Bool
  | .sent _ _ | .credited _ _ | .offered _ => true
  | _ => false

def sentAll : Label → ℕ
  | .sent _ n => n
  | _ => 0

def sentOn (id : ℕ) : Label → ℕ
  | .sent i n => if i = id then n else 0
  | _ => 0

def creditedOn (id : ℕ) : Label → ℕ
  | .credited i n => if i = id then n else 0
  | _ => 0

def grewOn (id : ℕ) : Label → ℕ
  | .grew i n => if i = id then n else 0
  | _ => 0

def gotAll : Label → ℕ
  | .got _ n => n
  | _ => 0

def gotOn (id : ℕ) : Label → ℕ
  | .got i n => if i = id then n else 0
  | _ => 0

def offer : Label → Option (List (UInt16 × UInt32))
  | .offered entries => some entries
  | _ => none

def isAcked : Label → Bool
  | .acked => true
  | _ => false

end Label

def total {α : Type} (w : α → ℕ) (ls : List α) : ℕ := (ls.map w).sum

section

variable {α : Type} {w : α → ℕ}

@[simp] lemma total_nil : total w [] = 0 := rfl

@[simp] lemma total_cons (l : α) (ls : List α) : total w (l :: ls) = w l + total w ls := by simp [total]

@[simp] lemma total_append (ls ms : List α) : total w (ls ++ ms) = total w ls + total w ms := by simp [total]

end

namespace Flow

def MAX : ℤ := 0x7fffffff

def loosened (acked : Limits × ℤ) (pending : List (List (UInt16 × UInt32))) : Limits × ℤ :=
  pending.foldl (fun acc entries => entries.foldl Connection.loosen acc) acked

def shiftSend (delta : ℤ) (p : ℕ × Credit) : ℕ × Credit := (p.1, { p.2 with send := p.2.send + delta })

def shiftRecv (delta : ℤ) (p : ℕ × Credit) : ℕ × Credit := (p.1, { p.2 with recv := p.2.recv + delta })

def unsent (p : ℕ × Credit) : ℕ × Credit := (p.1, { p.2 with send := 0 })

def enforce (F : Flow) : Flow :=
  { F with
    streams := F.streams.map (shiftRecv ((loosened F.acked F.pending).2 - F.recvInitial))
    limits := (loosened F.acked F.pending).1
    recvInitial := (loosened F.acked F.pending).2 }

inductive Step (F : Flow) : List Label → Flow → Prop where
  | data {id : ℕ} {a : Credit} {rest : Multiset (ℕ × Credit)} (n : ℕ) (live : F.failed = false)
      (entry : F.streams = (id, a) ::ₘ rest) (frame : n ≤ F.peerFrame) (conn : n ≤ F.send.toNat)
        (stream : n ≤ a.send.toNat) :
      Step F [.sent id n] { F with streams := (id, { a with send := a.send - n }) ::ₘ rest, send := F.send - n }
  | saw (s : Set ℕ) (sub : F.seen ⊆ s) : Step F [] { F with seen := s }
  | opened {id : ℕ} (s : Set ℕ) (zero : id ≠ 0) (fresh : id ∉ F.seen) (sub : insert id F.seen ⊆ s) :
      Step F [] { F with streams := (id, ⟨F.initialSend, F.recvInitial, 0, false⟩) ::ₘ F.streams, seen := s }
  | removed {id : ℕ} {a : Credit} {rest : Multiset (ℕ × Credit)} (entry : F.streams = (id, a) ::ₘ rest)
      (free : a.unreleased = 0) : Step F [] { F with streams := rest }
  | grew (n : ℕ) (max : F.send + n ≤ MAX) : Step F [.grew 0 n] { F with send := F.send + n }
  | grewOn {id : ℕ} {a : Credit} {rest : Multiset (ℕ × Credit)} (n : ℕ) (entry : F.streams = (id, a) ::ₘ rest)
      (max : a.send + n ≤ MAX) : Step F [.grew id n] { F with streams := (id, { a with send := a.send + n }) ::ₘ rest }
  | initial (v : ℕ) (value : v ≤ MAX) (max : ∀ p ∈ F.streams, p.2.send + (v - F.initialSend) ≤ MAX) :
      Step F [.initial v] { F with streams := F.streams.map (shiftSend (v - F.initialSend)), initialSend := v }
  | frameSize (v : ℕ) : Step F [.frameSize v] { F with peerFrame := v }
  | got {id : ℕ} {a : Credit} {rest : Multiset (ℕ × Credit)} (n : ℕ) (entry : F.streams = (id, a) ::ₘ rest)
      (conn : n ≤ F.recv) (stream : n ≤ a.recv) :
      Step F [.got id n]
        { F with
          streams := (id, { a with recv := a.recv - n, unreleased := a.unreleased + n }) ::ₘ rest
          recv := F.recv - n }
  | discarded (id n : ℕ) (known : id ∈ F.seen) (none : ∀ a, (id, a) ∉ F.streams) (conn : n ≤ F.recv) :
      Step F (.got id n :: if n = 0 then [] else [.credited 0 n]) F
  | released {id : ℕ} {a : Credit} {rest : Multiset (ℕ × Credit)} (n : ℕ) (entry : F.streams = (id, a) ::ₘ rest)
      (held : n ≤ a.unreleased) (silent : Bool) :
      Step F (.credited 0 n :: if silent then [] else [.credited id n])
        { F with
          streams := (id, { a with recv := a.recv + n, unreleased := a.unreleased - n }) ::ₘ rest
          recv := F.recv + n }
  | returned {id : ℕ} {a : Credit} {rest : Multiset (ℕ × Credit)} (entry : F.streams = (id, a) ::ₘ rest) :
      Step F [.credited 0 a.unreleased]
        { F with streams := (id, { a with unreleased := 0 }) ::ₘ rest, recv := F.recv + a.unreleased }
  | ended {id : ℕ} {a : Credit} {rest : Multiset (ℕ × Credit)} (entry : F.streams = (id, a) ::ₘ rest) :
      Step F [] { F with streams := (id, { a with ended := true }) ::ₘ rest }
  | offered (entries : List (UInt16 × UInt32)) (valid : entries.all Settings.valid) :
      Step F [.offered entries] { F with pending := F.pending ++ [entries] }.enforce
  | acked {entries : List (UInt16 × UInt32)} {rest : List (List (UInt16 × UInt32))}
      (first : F.pending = entries :: rest) :
      Step F [.acked] { F with pending := rest, acked := entries.foldl Connection.acknowledge F.acked }.enforce
  | broke {streams : Multiset (ℕ × Credit)} (same : streams.map unsent = F.streams.map unsent)
      (max : ∀ p ∈ streams, p.2.send ≤ MAX ∨ p ∈ F.streams) : Step F [] { F with streams := streams, failed := true }

abbrev Path : Flow → List Label → Flow → Prop := Trace Step

lemma Step.to {F G H : Flow} {ls : List Label} (h : Step F ls G) (hG : H = G) : Step F ls H := hG ▸ h

end Flow

end Turnloop.Http2
