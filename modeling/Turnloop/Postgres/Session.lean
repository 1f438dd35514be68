import Turnloop.Postgres.Calls

/-! A connection together with everything that its host did with it. -/

namespace Turnloop.Postgres

/-- A protocol library for examples: its messages are short, and it knows one good last word. -/
def Upstream.sample : Upstream where
  startupMessage _ := [0, 0, 0, 8, 0, 3, 0, 0]
  encode _ := ([0], true)
  md5Hash _ _ _ := []
  Scram := Bool
  message plus := if plus then Connection.plusPrefix else []
  update s _ := (s, true)
  finish _ data := data = [1]

def message (tag : UInt8) (body : Bytes) : Bytes := [tag, 0, 0, 0, UInt8.ofNat (body.length + 4)] ++ body

structure Step (U : Upstream) where
  before : Connection U
  call : Call U
  result : Except Error (Option Event)

structure Session (U : Upstream) where
  conn : Connection U
  trace : List (Step U)

variable {U : Upstream}

def told : Except Error (Option Event) → Option Event
  | .ok e => e
  | .error _ => none

namespace Step

def event (s : Step U) : Option Event := told s.result

def sends (s : Step U) : Bytes :=
  match s.call, s.result with
  | .consumeOutput n, .ok _ => s.before.unsent.take n
  | _, _ => []

def upgrades (s : Step U) : Bool :=
  match s.call, s.result with
  | .tlsEstablished _, .ok _ => true
  | _, _ => false

@[simp] lemma event_error {call : Call U} : (⟨c, call, .error e⟩ : Step U).event = none := rfl

@[simp] lemma event_ok {call : Call U} : (⟨c, call, .ok e⟩ : Step U).event = e := rfl

@[simp] lemma sends_error {call : Call U} : (⟨c, call, .error e⟩ : Step U).sends = [] := by
  cases call <;> rfl

@[simp] lemma upgrades_error {call : Call U} : (⟨c, call, .error e⟩ : Step U).upgrades = false := by
  cases call <;> rfl

end Step

def events (trace : List (Step U)) : List Event := trace.filterMap Step.event

def sent (trace : List (Step U)) : Bytes := trace.flatMap Step.sends

def upgraded (trace : List (Step U)) : Bool := trace.any Step.upgrades

@[simp] lemma events_concat (trace : List (Step U)) (s : Step U) :
    events (trace ++ [s]) = events trace ++ s.event.toList := by
  cases h : s.event <;> simp [events, h]

@[simp] lemma sent_concat (trace : List (Step U)) (s : Step U) : sent (trace ++ [s]) = sent trace ++ s.sends := by
  simp [sent]

@[simp] lemma upgraded_concat (trace : List (Step U)) (s : Step U) :
    upgraded (trace ++ [s]) = (upgraded trace || s.upgrades) := by
  simp [upgraded]

namespace Session

def start (c : Connection U) : Session U := ⟨c, []⟩

def exec (s : Session U) (call : Call U) : Session U where
  conn := (Connection.call call s.conn).2
  trace := s.trace ++ [⟨s.conn, call, (Connection.call call s.conn).1⟩]

def run (s : Session U) (calls : List (Call U)) : Session U := calls.foldl exec s

lemma run_invariant {P : List (Step U) → Connection U → Prop} {s : Session U} (hs : P s.trace s.conn)
    (hp : ∀ trace c call r c', P trace c → Connection.Called c call r c' → P (trace ++ [⟨c, call, r⟩]) c')
    (calls : List (Call U)) : P (s.run calls).trace (s.run calls).conn := by
  induction calls generalizing s with
  | nil => exact hs
  | cons call calls ih => exact ih (hp _ _ _ _ _ hs (Connection.call_called s.conn call))

end Session

namespace Connection

variable {c c' : Connection U}

lemma Handled.config (h : Handled c tag v r c') : c'.config = c.config := by
  cases h with
  | authentication _ h => cases h <;> rfl
  | _ => rfl

lemma Pulled.config (h : Pulled c vs r c') : c'.config = c.config := by
  induction h with
  | plain _ _ _ ih => exact ih
  | message _ _ _ h₁ _ ih => exact ih.trans h₁.config
  | last _ _ _ h => exact h.config
  | _ => rfl

lemma Called.config {call : Call U} (h : Called c call r c') : c'.config = c.config := by
  cases h with
  | pulled h => exact h.config
  | _ => rfl

end Connection

end Turnloop.Postgres
