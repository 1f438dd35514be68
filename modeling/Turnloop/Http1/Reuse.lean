import Turnloop.Http1.Fragments

/-! Behind a message without framing of its own nothing is read as another message. -/

namespace Turnloop.Http1.Decoder

open Lib (Bytes ascii)
open List hiding head

inductive Call where
  | receive (input : Bytes)
  | eof
  | reset

variable (p : Parser) {d : Decoder}

/-- The decoder after a call, and the event it returned; a refused `reset` changes nothing. -/
def exec (d : Decoder) : Call → Decoder × Option Event
  | .receive input => ((d.receive p input).1, (d.receive p input).2.toOption.bind Step.event)
  | .eof => (d.eof.1, none)
  | .reset => (d.reset.toOption.getD d, none)

def after (d : Decoder) (calls : List Call) : Decoder := calls.foldl (fun d c => (d.exec p c).1) d

def Unframed (d : Decoder) : Prop := d.state = .Eof ∨ d.state = .Upgrade

structure Sealed (d : Decoder) : Prop where
  kept : d.keepAlive = false
  state : d.Unframed ∨ d.state = .End ∨ d.state = .Done ∨ d.state = .Failed

lemma exec_sealed (h : d.Sealed) (c : Call) : (d.exec p c).1.Sealed ∧ ∀ head, (d.exec p c).2 ≠ some (.Head head) := by
  obtain ⟨hk, hs⟩ := h
  cases c with
  | receive input =>
    rcases hs with (hs | hs) | hs | hs | hs <;> simp only [exec, receive, receiveInner, hs]
    · split_ifs <;> exact ⟨⟨hk, .inl (.inl hs)⟩, by simp [Except.toOption]⟩
    · exact ⟨⟨hk, by simp⟩, by simp [Except.toOption]⟩
    · exact ⟨⟨hk, by simp⟩, by cases d.upgradeRequest <;> simp [Except.toOption]⟩
    · exact ⟨⟨hk, by simp [hs]⟩, by simp [Except.toOption]⟩
    · exact ⟨⟨hk, by simp⟩, by simp [Except.toOption]⟩
  | eof =>
    refine ⟨?_, by simp [exec]⟩
    unfold exec eof
    split_ifs <;> exact ⟨hk, by simp [hs]⟩
  | reset =>
    have hr : d.reset = .error (invalid "connection is not reusable") := by simp [reset, reusable, hk]
    simp only [exec, hr]
    exact ⟨⟨hk, hs⟩, by simp⟩

lemma enter_sealed {he : Head} (hu : (d.enter he cl te).Unframed) : (d.enter he cl te).Sealed := by
  refine ⟨?_, .inl hu⟩
  revert hu
  unfold enter Unframed
  split_ifs
  · simp
  · simp
  · simp
  all_goals
    cases cl with
    | none => simp
    | some n =>
      dsimp only
      split_ifs <;> simp

lemma receive_sealed (hs : d.state = .Head) {input : Bytes} (hu : (d.receive p input).1.Unframed) :
    (d.receive p input).1.Sealed := by
  have hf : ∀ {d' : Decoder}, d'.state = .Head ∨ d'.state = .Failed → d'.Unframed → d'.Sealed := by
    rintro d' (h | h) (h' | h') <;> cases h.symm.trans h'
  revert hu
  unfold receive
  split
  · rename_i d' s hr
    obtain ⟨n, event⟩ := s
    cases receiveInner_goes hr with
    | head => exact enter_sealed
    | waits | informed => exact hf (.inl hs)
    | sized hs' => cases hs.symm.trans hs'
    | body hs' | on hs' => exact absurd hs hs'
  · exact hf (.inr rfl)

theorem unframed_never_reused (hs : d.state = .Head) (input : Bytes) (unframed : (d.receive p input).1.Unframed)
    (calls : List Call) :
    ((d.receive p input).1.after p calls).reusable = false ∧
    ∀ c head, (((d.receive p input).1.after p calls).exec p c).2 ≠ some (.Head head) := by
  have hl := foldlRecOn calls _ (receive_sealed p hs unframed) fun d h c _ => (exec_sealed p h c).1
  exact ⟨by simp [reusable, after, hl.kept], fun c => (exec_sealed p hl c).2⟩

theorem unframed_never_reused_response :
    let d := ((new .Response .default).receive .plain (ascii "HTTP/1.1 200 OK\r\n\r\n")).1
    d.state = .Eof ∧ (d.after .plain [.receive hello, .eof, .receive [], .reset]).reusable = false :=
  ⟨by decide +kernel, (unframed_never_reused .plain rfl _ (.inl (by decide +kernel)) _).1⟩

end Turnloop.Http1.Decoder
