import Turnloop.Driver.Reserve

/-! What the backend reports: the events of a poll. -/

namespace Turnloop.Driver

open Lib

variable {A : Leave} {d d' : Driver} {h : Handle} {id : OpId} {raw : Op} {result : OpResult} {e : Event}

lemma fsResult_spec (hr : fsResult handle output lease = some result) :
    result.Ordinary ∧ result ≠ .timer ∧ ∀ h, result.handle = some h → handle = some h := by
  cases output with
  | opened =>
    obtain ⟨h, rfl, rfl⟩ := Option.map_eq_some_iff.mp hr
    exact ⟨trivial, nofun, fun _ hh => hh⟩
  | _ =>
    cases hr
    exact ⟨trivial, nofun, nofun⟩

lemma finish_buffered (g : d.Good) (mine : id.owner = d.owner) (ordinary : result.Ordinary)
    (introduces : d.books.Introduces result) {terminal : Bool} {k : EventClass} :
    (d.finish id result terminal).buffered k ≤ d.buffered k + (!terminal).toNat := by
  cases terminal with
  | true =>
    have hq : Refines .none d _ := finish_refines g mine ordinary introduces true nofun
    exact Books.Steps.buffered_le (fun hf => hf) hq.steps k
  | false =>
    rw [finish]
    cases d.ops.get id.key with
    | none => exact Nat.le_add_right _ _
    | some =>
      simp only [Bool.false_and, Bool.false_eq_true, if_false]
      rw [enqueue_eq]
      simp only
      rw [Books.push_buffered]
      exact Nat.add_le_add_left (Bool.toNat_le _) _

lemma attached_result (r : Driver × Result Handle) (f : Handle → OpResult) : (match r with
    | (d, .ok h) => (d, some (f h))
    | (d, .error e) => (d, some (.err e))) = (r.1, some (match r.2 with
      | .ok h => f h
      | .error e => .err e)) := by
  cases r with
  | mk d₁ res => cases res <;> rfl

lemma outcomeResult_connection (d : Driver) (id : OpId) (raw : Op) (attached : Handle → Result Unit)
    (hc : outcome.connection = true) :
    ∃ f : Handle → OpResult, (∀ h, (f h).Ordinary ∧ f h ≠ .timer ∧ (f h).handle = some h) ∧
      d.outcomeResult id raw attached outcome =
        ((d.attachReserved id attached).1, some (match (d.attachReserved id attached).2 with
          | .ok h => f h
          | .error e => .err e)) := by
  cases outcome with
  | pipeAccepted transport => exact ⟨.pipeAccepted, fun _ => ⟨trivial, by rintro ⟨⟩, rfl⟩, attached_result _ _⟩
  | handleReceived transport => exact ⟨.handleReceived, fun _ => ⟨trivial, by rintro ⟨⟩, rfl⟩, attached_result _ _⟩
  | accepted transport pe => exact ⟨(.accepted · pe), fun _ => ⟨trivial, by rintro ⟨⟩, rfl⟩, attached_result _ _⟩
  | _ => cases hc

lemma outcomeResult_plain (d : Driver) (id : OpId) (raw : Op) (attached : Handle → Result Unit)
    (hc : outcome.connection = false) :
    ∃ res, d.outcomeResult id raw attached outcome = (d, res) ∧
      ∀ result, res = some result → result.Ordinary ∧ result ≠ .timer ∧ ∀ h, result.handle = some h →
        raw.handle = some h := by
  cases outcome with
  | pipeAccepted | handleReceived | accepted => cases hc
  | fs => exact ⟨_, rfl, fun result hr => fsResult_spec hr⟩
  | _ =>
    refine ⟨_, rfl, fun result hr => ?_⟩
    cases hr
    exact ⟨trivial, nofun, nofun⟩

structure Reported (A : Leave) (d d' : Driver) (terminal : Bool) : Prop where
  refines : Refines A d d'
  native : d'.buffered .native ≤ d.buffered .native + (!terminal).toNat

lemma finish_reported (g : d.Good) (mine : id.owner = d.owner) (ordinary : result.Ordinary) (untimed : result ≠ .timer)
    (introduces : d.books.Introduces result)
    (room : terminal = false → A.notifies ∧ (A.crowd ∨ d.buffered .native < d.config.eventsPerTurn)) :
    Reported A d (d.finish id result terminal) terminal := by
  refine ⟨finish_refines g mine ordinary introduces terminal fun ht => ?_, finish_buffered g mine ordinary introduces⟩
  rw [if_neg untimed]
  exact room ht

lemma finish_plain (g : d.Good) (mine : id.owner = d.owner) (ordinary : result.Ordinary)
    (untimed : result ≠ .timer) (plain : result.handle = none)
    (room : terminal = false → A.notifies ∧ (A.crowd ∨ d.buffered .native < d.config.eventsPerTurn)) :
    Reported A d (d.finish id result terminal) terminal := by
  refine finish_reported g mine ordinary untimed (fun h hh => ?_) room
  rw [plain] at hh
  cases hh

lemma finishFs_reported (g : d.Good) (mine : id.owner = d.owner) (ordinary : result.Ordinary)
    (names : ∀ h, result.handle = some h → (d.ops.get id.key).bind Op.handle = some h) :
    Reported A d (d.finishFs id result) true := by
  have hq : Refines .none d (d.finishFs id result) := finishFs_refines g mine ordinary names
  exact ⟨finishFs_refines g mine ordinary names, Books.Steps.buffered_le (fun hf => hf) hq.steps .native⟩

def houses (d : Driver) (id : OpId) (attached : Handle → Result Unit) (f : Handle → OpResult)
    (terminal : Bool) : Driver :=
  (d.attachReserved id attached).1.finish id (match (d.attachReserved id attached).2 with
    | .ok h => f h
    | .error e => .err e) terminal

def Hands (f : Handle → OpResult) : Prop := ∀ h, (f h).Ordinary ∧ f h ≠ .timer ∧ (f h).handle = some h

lemma housed_reported (g : d.Good) (mine : id.owner = d.owner) (hr : d.ops.get id.key = some raw)
    (attached : Handle → Result Unit) (hd : (d.attachReserved id attached).1 = d')
    (notify : terminal = false → A.notifies ∧ (A.crowd ∨ d'.buffered .native < d'.config.eventsPerTurn))
    (ha : Hands f) : Reported A d' (d.houses id attached f terminal) terminal := by
  have hh : Refines .all d d' := hd ▸ attachReserved_refines g mine hr trivial trivial (.inl trivial) attached
  have hm := mine.trans hh.owner.symm
  rw [houses, hd]
  cases he : (d.attachReserved id attached).2 with
  | error error => exact finish_plain hh.good hm trivial nofun rfl notify
  | ok h =>
    have hf := attachReserved_ok g mine hr (Prod.ext hd he)
    refine finish_reported hh.good hm (ha h).1 (ha h).2.1 (fun h' hh' => ?_) notify
    obtain rfl := Option.some.inj ((ha h).2.2.symm.trans hh')
    exact ⟨_, hf, rfl⟩

lemma houses_reported (g : d.Good) (mine : id.owner = d.owner) (hr : d.ops.get id.key = some raw)
    (opens : A.opens) (take : A.take id) (room : A.noRoom ∨ d.Roomy raw)
    (notify : terminal = false → A.notifies ∧ (A.crowd ∨ d.buffered .native < d.config.eventsPerTurn))
    (attached : Handle → Result Unit) (ha : Hands f) :
    Reported A d (d.houses id attached f terminal) terminal := by
  have hh := attachReserved_refines g mine hr opens take room attached
  have hi : Refines { Leave.all with notifies := False } d _ :=
    attachReserved_refines g mine hr trivial trivial (.inl trivial) attached
  have hb := Books.Steps.buffered_le (fun hf => hf) hi.steps .native
  have hc : Driver.config _ = d.config := Books.Steps.config hi.steps
  have he : Reported A (d.attachReserved id attached).1 (d.houses id attached f terminal) terminal := by
    refine housed_reported g mine hr attached rfl (fun ht => ?_) ha
    rw [hc]
    exact (notify ht).imp_right fun hn => hn.imp_right fun hl => hb.trans_lt hl
  exact ⟨hh.trans he.refines, he.native.trans (Nat.add_le_add_right hb _)⟩

lemma acceptEvent_cases (g : d.Good) (e : Event) (attached : Handle → Result Unit) :
    (∀ A : Leave, (e.terminal = false → A.notifies ∧ (A.crowd ∨ d.buffered .native < d.config.eventsPerTurn)) →
      Reported A d (acceptEvent attached d e) e.terminal) ∨
    ∃ raw f, e.op.owner = d.owner ∧ d.ops.get e.op.key = some raw ∧ e.connection = true ∧ Hands f ∧
      acceptEvent attached d e = d.houses e.op attached f e.terminal := by
  have hi (A : Leave) : Reported A d d e.terminal := ⟨.refl g, Nat.le_add_right _ _⟩
  rw [acceptEvent]
  split
  case isTrue => exact .inl fun A _ => hi A
  case isFalse ho =>
    have mine : e.op.owner = d.owner := by simpa using ho
    cases hr : d.ops.get e.op.key with
    | none => exact .inl fun A _ => hi A
    | some raw =>
      simp only
      split
      case isTrue hf =>
        have he : e.terminal = true := (Bool.and_eq_true_iff.mp hf).2
        rw [he] at hi ⊢
        refine .inl fun A _ => ?_
        split
        case h_1 => exact hi A
        case h_2 res result hb =>
          have hp : result.Ordinary ∧ ∀ h, result.handle = some h → raw.handle = some h := by
            split at hb
            · cases hb
              exact ⟨trivial, nofun⟩
            · split at hb
              · obtain ⟨hd, -, hn⟩ := fsResult_spec hb
                exact ⟨hd, hn⟩
              all_goals
                cases hb
                exact ⟨trivial, nofun⟩
          refine finishFs_reported g mine hp.1 fun h hh => ?_
          rw [hr]
          exact hp.2 h hh
      case isFalse =>
        split
        case isTrue =>
          refine .inl fun A _ => ?_
          split
          case isTrue he =>
            rw [he]
            split
            · exact finish_plain g mine trivial nofun rfl nofun
            · split
              · exact finish_plain g mine trivial nofun rfl nofun
              · exact finish_plain g mine trivial nofun rfl nofun
          case isFalse => exact hi A
        case isFalse =>
          cases hb : e.result with
          | error error => exact .inl fun A notify => finish_plain g mine trivial nofun rfl notify
          | ok outcome =>
            have hg : e.connection = outcome.connection := by rw [Event.connection, hb]
            simp only
            cases hc : outcome.connection with
            | false =>
              refine .inl fun A notify => ?_
              obtain ⟨res, hb, hl⟩ := outcomeResult_plain d e.op raw attached hc
              rw [hb]
              cases res with
              | none => exact hi A
              | some result =>
                obtain ⟨hd, hu, hn⟩ := hl result rfl
                refine finish_reported g mine hd hu (g.introduces mine fun h hh => ?_) notify
                rw [hr]
                exact hn h hh
            | true =>
              obtain ⟨f, ha, hk⟩ := outcomeResult_connection d e.op raw attached hc
              refine .inr ⟨raw, f, mine, rfl, hg.trans hc, ha, ?_⟩
              rw [hk]
              rfl

structure Allows (A : Leave) (d : Driver) (e : Event) : Prop where
  house : e.connection = true → A.opens ∧ A.take e.op
  room : A.noRoom ∨ (e.connection = true → ∀ raw, d.ops.get e.op.key = some raw → d.Roomy raw)
  notify : e.terminal = false → A.notifies ∧ (A.crowd ∨ d.buffered .native < d.config.eventsPerTurn)

lemma acceptEvent_reported (g : d.Good) (allows : Allows A d e) (attached : Handle → Result Unit) :
    Reported A d (acceptEvent attached d e) e.terminal := by
  rcases acceptEvent_cases g e attached with hq | ⟨raw, f, mine, ha, hc, hn, he⟩
  · exact hq A allows.notify
  · rw [he]
    have hl := allows.house hc
    exact houses_reported g mine ha hl.1 hl.2 (allows.room.imp_right fun hr => hr hc raw ha)
      allows.notify attached hn

end Turnloop.Driver
