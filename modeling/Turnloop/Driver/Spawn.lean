import Turnloop.Driver.Requests
import Mathlib.Data.List.ReduceOption

/-! Spawning a process creates several handles, and a failed spawn takes every one of them back. -/

namespace Turnloop.Driver

open Lib List Multiset

variable {A : Leave} {d d' : Driver} {h : Handle}

def newborn (hs : List Handle) : Multiset (Handle × Resource) := (hs.map fun h => (h, Resource.fresh .socket) : List _)

lemma newborn_cons (h : Handle) (hs : List Handle) : newborn (h :: hs) = (h, .fresh .socket) ::ₘ newborn hs := rfl

lemma newborn_append (hs hs' : List Handle) : newborn (hs ++ hs') = newborn hs + newborn hs' := by
  simp [newborn]

lemma releaseFresh_eq (s : d.Sound) (live : (h, .fresh .socket) ∈ d.live) : d.releaseFresh h = d.withdraw h := by
  obtain ⟨-, _, hr, -⟩ := s.mem_live.mp live
  have hd : (d.releaseBackend h).Sound :=
    s.edit rfl (.refl s.handles) (.refl s.ops) (by simp [releaseBackend, note]) (by simp [releaseBackend, note])
  rw [releaseFresh, withdraw, removeSocket, freeHandle_eq hd (by exact hr)]

lemma releaseFresh_all {hs : List Handle} (g : d.Good) (live : d.live = newborn hs + S) :
    Refines A d (hs.foldl releaseFresh d) := by
  induction hs generalizing d with
  | nil => exact .refl g
  | cons h hs ih =>
    rw [newborn_cons, cons_add] at live
    have hw : Refines A d (d.withdraw h) := withdraw_refines g (mem_head live)
    have hr := withdraw_live g (mem_head live)
    rw [live, Multiset.cons_inj_right] at hr
    rw [List.foldl_cons, releaseFresh_eq g.sound (mem_head live)]
    exact hw.trans (ih hw.good hr.symm)

lemma parentEnds_spec (ends : List ChildEnd) (g : d.Good) : (∀ A : Leave, A.opens → Refines A d (d.parentEnds ends).1) ∧
      (d.parentEnds ends).1.live = newborn (d.parentEnds ends).2.1.reduceOption + d.live := by
  induction ends generalizing d with
  | nil => exact ⟨fun _ _ => .refl g, (zero_add _).symm⟩
  | cons e rest ih =>
    cases e with
    | absent =>
      simp only [parentEnds, List.reduceOption_cons_of_none]
      exact ih g
    | lent so =>
      simp only [parentEnds]
      cases d.resource so with
      | error =>
        simp only [List.reduceOption_cons_of_none, List.map_const', List.reduceOption_replicate_none]
        exact ⟨fun _ _ => .refl g, (zero_add _).symm⟩
      | ok =>
        simp only [List.reduceOption_cons_of_none]
        exact ih g
    | made =>
      simp only [parentEnds]
      rcases newHandle_cases d .socket with ⟨e, hn⟩ | ⟨_, h, hn⟩ <;> rw [hn]
      · simp only [List.reduceOption_cons_of_none, List.map_const', List.reduceOption_replicate_none]
        exact ⟨fun _ _ => .refl g, (zero_add _).symm⟩
      · obtain ⟨-, ho, hl⟩ := newHandle_ok g (by simp) hn
        obtain ⟨hr, he⟩ := ih (ho .all trivial).good
        simp only [reduceOption_cons_of_some, newborn_cons]
        refine ⟨fun A leave => (ho A leave).trans (hr A leave), ?_⟩
        rw [he, hl, add_cons, cons_add]

lemma spawnInner_spec (g : d.Good) (live : (h, .fresh .socket) ∈ d.live) {spec : ProcessSpec} {token : Token}
    {spawned : Result ℕ} (submitted : Result Unit)
    (hs : d.spawnInner h spec token spawned submitted = (d', pipes, parents, res)) :
    Answers d (d', res) ∧ ∀ e, res = .error e →
      d'.live = newborn (pipes.reduceOption ++ parents.reduceOption) + d.live := by
  obtain ⟨hm, hi⟩ := parentEnds_spec spec.stdio g
  rw [spawnInner] at hs
  cases hp : d.parentEnds spec.stdio with
  | mk d₁ p =>
    obtain ⟨pipes₁, made⟩ := p
    rw [hp] at hs hm hi
    cases made with
    | error =>
      cases hs
      refine ⟨fun A leave _ => hm A leave, fun _ _ => ?_⟩
      rw [List.map_const', List.reduceOption_replicate_none, List.append_nil]
      exact hi
    | ok _ =>
      have g₁ := (hm .all trivial).good
      obtain ⟨hm', ha⟩ := parentEnds_spec (spec.extra.map ChildFd.source) g₁
      simp only at hs
      cases hp' : d₁.parentEnds (spec.extra.map ChildFd.source) with
      | mk d₂ p =>
        obtain ⟨parents₂, made⟩ := p
        rw [hp'] at hs hm' ha
        have hb (A : Leave) (leave : A.opens) : Refines A d d₂ := (hm A leave).trans (hm' A leave)
        have g₂ := (hb .all trivial).good
        have hl : d₂.live = newborn (pipes₁.reduceOption ++ parents₂.reduceOption) + d.live := by
          rw [ha, hi, newborn_append, ← add_assoc, add_comm (newborn parents₂.reduceOption)]
        cases made with
        | error =>
          cases hs
          exact ⟨fun A leave _ => hb A leave, fun _ _ => hl⟩
        | ok _ =>
          have hf : (h, .fresh .socket) ∈ d₂.live := by
            rw [hl]
            exact mem_add.mpr (.inr live)
          simp only at hs
          rcases newOp_cases d₂ (some h) token with ⟨e, hn⟩ | ⟨d₃, id, hn⟩ <;> rw [hn] at hs
          · cases hs
            exact ⟨fun A leave _ => hb A leave, fun _ _ => hl⟩
          · obtain ⟨native, he, -⟩ := newOp_ok g₂ hn (target_of_live hf rfl fun _ => rfl)
            have hu : ∀ h' r, some h = some h' → (h', r) ∈ d₂.live → r.kind.isTimer = false := by
              intro h' r hh' hr
              cases hh'
              obtain rfl := g₂.balanced.kept.handles.unique hr hf
              rfl
            have hc : Books.Asks id (.fresh (some h) token native) [.requested id .processExit] := by
              intro e hd
              exact ⟨.processExit, List.mem_singleton.mp hd, rfl, fun _ => rfl⟩
            have hg := he.granted g₂ (g₂.fits rfl rfl) g₂.balanced.exact_.undelivered_le (fun _ => rfl) hc
              (fun hh => by cases hh)
            have hk (e : Error) := he.refused g₂ (g₂.fits rfl rfl) hu e
            have ho (e : Error) : Answers d (d₃.abandon id, (.error e : Result ℕ)) ∧
                (d₃.abandon id).live = newborn (pipes₁.reduceOption ++ parents₂.reduceOption) + d.live := by
              refine ⟨fun A leave _ => (hb A leave).trans ((hk e).answers A leave nofun), ?_⟩
              exact ((hk e).live e rfl).trans hl
            simp only at hs
            cases spawned with
            | error e =>
              cases hs
              exact ⟨(ho e).1, fun _ _ => (ho e).2⟩
            | ok =>
              cases submitted with
              | error e =>
                cases hs
                exact ⟨(ho e).1, fun _ _ => (ho e).2⟩
              | ok _ =>
                cases hs
                exact ⟨.after hb fun A leave iss => hg.answers A leave fun _ => iss rfl, nofun⟩

lemma spawnExtra_answers (g : d.Good) {spawned : Result ℕ} :
    Answers d (d.spawnExtra spec slots token spawned submitted) := by
  rw [spawnExtra]
  split
  case isFalse => exact .refl g _
  case isTrue =>
    rcases newHandle_cases d .socket with ⟨e, hn⟩ | ⟨d₁, h, hn⟩ <;> rw [hn]
    · exact .refl g e
    · obtain ⟨-, ho, hl⟩ := newHandle_ok g (by simp) hn
      refine .after ho ?_
      simp only
      cases hs : d₁.spawnInner h spec token spawned submitted with
      | mk d₂ p =>
        obtain ⟨pipes, parents, res⟩ := p
        obtain ⟨ha, hc⟩ := spawnInner_spec (ho .all trivial).good (mem_head hl)
          submitted hs
        cases res with
        | ok => exact fun A leave iss => ha A leave fun _ => iss rfl
        | error e =>
          have hb : d₂.live = newborn (h :: (pipes.reduceOption ++ parents.reduceOption)) + d.live := by
            rw [hc e rfl, hl, newborn_cons, add_cons, cons_add]
          intro A leave _
          have hp := ha A leave nofun
          exact hp.trans (releaseFresh_all hp.good hb)

end Turnloop.Driver
