import Turnloop.Smtp.Settlement

/-! The same bytes in one call and in pieces. -/

namespace Turnloop.Smtp

open List Lib Program

variable {L : Library} {c : Connection L}

namespace Connection

/-- Another unread rest and history: only `receive` reads the one, and nothing the other. -/
@[simps]
def shift (x : Bytes) (l : List Entry) (c : Connection L) : Connection L := { c with rx := x, log := l }

end Connection

open Connection

abbrev Outcome (L : Library) (α : Type) := Except Stop α × Connection L

/-- The same outcome but for the history, with `x` unread behind it. -/
def Alike (x : Bytes) (o o' : Outcome L α) : Prop := ∃ l, o' = (o.1, o.2.shift (o.2.rx ++ x) l)

def failed (message : String) (c : Connection L) : Outcome L α :=
  let e := error "EPROTOCOL" c.commandName message none []
  (.error (.err e), (c.fail e).closeTransport)

def answered (now : ℕ) (d : Connection L) : Connection L :=
  if d.state = .Closed ∨ d.state = .Greeting then d else d.arm now

/-- The lines of `bytes`, before the check of what is left of them. -/
def drained (now : ℕ) (c : Connection L) (bytes : Bytes) : Outcome L Unit :=
  receiveLines now (c.rx.length + bytes.length) (c.takePiece bytes)

/-- The marks `f` sets in each part, given the bytes before it. -/
def marks (f : Bytes → Bytes → List Bytes) (p : Bytes) : List Bytes → List Bytes
  | [] => []
  | y :: ys => f p y ++ marks f (p ++ y) ys

def checked : Outcome L Unit → Outcome L Unit
  | (.ok (), d) =>
    if decide (d.rx.length + d.response.length > d.config.maxResponseBytes) then
      failed "SMTP response too large" (d.note (.excess d.state))
    else (.ok (), d)
  | o => o

section

variable {now : ℕ} {c s : Connection L} {bytes p y q : Bytes}

/-- The outcome after `p`, where nothing has been tested before the first byte. -/
def Reaches (now : ℕ) (c : Connection L) (p : Bytes) (o : Outcome L Unit) : Prop :=
  p = [] ∧ o = (.ok (), c) ∨ p ≠ [] ∧ Alike [] (checked (drained now c p)) o

lemma Reaches.drained (h : Reaches now c p (.ok (), s)) (hp : p ≠ []) : ∃ d l, drained now c p = (.ok (), d) ∧
    d.rx.length + d.response.length ≤ d.config.maxResponseBytes ∧ s = d.shift (d.rx ++ []) l := by
  obtain ⟨l, hl⟩ := (h.resolve_left fun h => hp h.1).2
  rcases hd : Smtp.drained now c p with ⟨_ | ⟨⟩, d⟩
  · rw [hd] at hl
    cases hl
  · rw [hd, checked] at hl
    split_ifs at hl with hg
    · cases hl
    · cases hl
      exact ⟨d, l, rfl, by simpa using hg, rfl⟩

lemma Reaches.same {o o' : Outcome L Unit} (h : Reaches now c p o) (h' : Reaches now c p o') :
    o.1 = o'.1 ∧ ∃ log, o.2 = { o'.2 with log := log } := by
  rcases h with ⟨hp, rfl⟩ | ⟨hp, l, rfl⟩ <;> rcases h' with ⟨hp', rfl⟩ | ⟨hp', l', rfl⟩
  · exact ⟨rfl, _, rfl⟩
  · exact absurd hp hp'
  · exact absurd hp' hp
  · exact ⟨rfl, l, rfl⟩

end

def greeting (limit : ℕ) : Connection .sample := { config := { maxResponseBytes := limit }, state := .Greeting }

end Turnloop.Smtp
