import Turnloop.Driver.Entry

/-! The calls that create handles and submit operations on them. -/

namespace Turnloop

open Lib

lemma Operation.reserve_of_multishot {operation : Operation} (hm : operation.multishotAccept = true) :
    operation.reserve = 1 := by
  cases operation <;> simp_all [Operation.multishotAccept, Operation.reserve]

namespace Driver

variable {A : Leave} {d d' : Driver} {h : Handle} {r : Resource} {token : Token}

lemma resource_ok (s : d.Sound) (hr : d.resource h = .ok r) : (h, r.bare) ∈ d.live ∧ d.handles.get h.key = some r ∧
    r.hidden = false := by
  rw [resource] at hr
  split at hr
  case isTrue => cases hr
  case isFalse ho =>
    split at hr
    case h_2 => cases hr
    case h_1 r' hg =>
      split at hr
      case isTrue => cases hr
      case isFalse hh =>
        obtain rfl := Except.ok.inj hr
        exact ⟨s.mem_live.mpr ⟨by simpa using ho, r', hg, rfl⟩, hg, by simpa using hh⟩

lemma target_of_live (live : (h, r) ∈ d.live) (unclosed : r.closing = none) (first : r.hidden = true → r.pending = 0) :
    ∀ h', some h = some h' → ∃ r', (h', r') ∈ d.live ∧ r'.closing = none ∧ (r'.hidden = true → r'.pending = 0) := by
  intro h' he
  cases he
  exact ⟨r, live, unclosed, first⟩

abbrev demand (operation : Operation) (o : Op) : Op :=
  { o with
    multishot := operation.multishotAccept
    reservedHandles := if operation.multishotAccept then 0 else operation.reserve }

lemma demand_entered (operation : Operation) {id : OpId} (e : Entered d d' id (.fresh (some h) token native)) :
    Entered d (if operation.multishotAccept then
        { d' with
          reservedHandles := d'.reservedHandles + operation.reserve
          ops := d'.ops.modify id.key fun op => { op with multishot := true }
          multishotArmed := d'.multishotArmed + 1
          multishotReserved := d'.multishotReserved + 1 }
      else { d' with
          reservedHandles := d'.reservedHandles + operation.reserve
          ops := d'.ops.modify id.key fun op => { op with reservedHandles := operation.reserve } })
      id (demand operation (.fresh (some h) token native)) := by
  rw [demand]
  cases hm : operation.multishotAccept with
  | true =>
    have hr := Operation.reserve_of_multishot hm
    exact e.edit (fun op => { op with multishot := true }) (fun _ => rfl) rfl (by simp [hr]) (by simp) (by simp)
      rfl rfl
  | false =>
    exact e.edit (fun op => { op with reservedHandles := operation.reserve }) (fun _ => rfl) rfl (by simp) rfl rfl
      rfl rfl

def Answers {α : Type} (d : Driver) (p : Driver × Result α) : Prop :=
  ∀ A : Leave, A.opens → (p.2.isOk = true → A.issues) → Refines A d p.1

structure Submitted (d : Driver) (p : Driver × Result OpId) : Prop where
  answers : Answers d p
  accepted : ∀ id, p.2 = .ok id → .accepted id ∈ p.1.trace
  live : ∀ e, p.2 = .error e → p.1.live = d.live

lemma Answers.refl {α : Type} (g : d.Good) (e : Error) : Answers d (d, (.error e : Result α)) := fun _ _ _ => .refl g

lemma Answers.after {α : Type} {p : Driver × Result α} (before : ∀ A : Leave, A.opens → Refines A d d')
    (answers : Answers d' p) : Answers d p :=
  fun A leave iss => (before A leave).trans (answers A leave iss)

lemma Submitted.refl (g : d.Good) (e : Error) : Submitted d (d, .error e) := ⟨.refl g e, nofun, fun _ _ => rfl⟩

lemma Submitted.after (refused : Submitted d (d', .error e)) (s : Submitted d' p) : Submitted d p :=
  ⟨.after (fun A leave => refused.answers A leave nofun) s.answers, s.accepted,
    fun e' he' => (s.live e' he').trans (refused.live e rfl)⟩

lemma foldl_note (es : List Effect) (d : Driver) : es.foldl note d = { d with trace := d.trace ++ es } := by
  induction es generalizing d with
  | nil => simp
  | cons e es ih => simp [ih, note]

section

variable (g : d.Good)
include g

lemma Entered.refused {id : OpId} (e : Entered d d' id o)
    (room : d.reservedHandles + o.reservedHandles + o.multishot.toNat ≤ d.handles.remaining)
    (untimed : ∀ h r, o.handle = some h → (h, r) ∈ d.live → r.kind.isTimer = false) (error : Error) :
    Submitted d (d'.abandon id, .error error) := by
  obtain ⟨hr, hl⟩ := e.abandon g room untimed
  exact ⟨fun A _ _ => hr A, nofun, fun _ _ => hl⟩

lemma Entered.granted {id : OpId} (e : Entered d d' id o)
    (room : d.reservedHandles + o.reservedHandles + o.multishot.toNat ≤ d.handles.remaining)
    (port : d.undelivered + o.port.toNat ≤ d.config.maxUndelivered)
    (pooled : o.multishot = true → o.reservedHandles = 0) (asks : Books.Asks id o es)
    (loose : o.handle = none → es = []) : Submitted d ((es ++ [Effect.accepted id]).foldl note d', .ok id) := by
  rw [foldl_note]
  refine ⟨fun A _ iss => e.accept g (iss rfl) room port pooled asks loose, fun id' hi' => ?_, nofun⟩
  cases hi'
  simp

lemma submit_submitted (h : Handle) (operation : Operation) (token : Token) (submitted : Result Unit) :
    Submitted d (d.submit h operation token submitted) := by
  rw [submit]
  cases hr : d.resource h with
  | error e => exact .refl g e
  | ok r =>
    simp only
    split
    case isTrue => exact .refl g _
    case isFalse hk =>
      split
      case isTrue => exact .refl g _
      case isFalse ho =>
        push Not at hk ho
        obtain ⟨hl, -, hh⟩ := resource_ok g.sound hr
        rcases newOp_cases d (some h) token with ⟨e, hn⟩ | ⟨d₁, id, hn⟩ <;> rw [hn]
        · exact .refl g e
        · obtain ⟨native, he, -⟩ := newOp_ok g hn (target_of_live hl hk.1 (by simp [Resource.bare, hh]))
          have hb := demand_entered operation he
          have hf : d.reservedHandles + (demand operation (.fresh (some h) token native)).reservedHandles +
              (demand operation (.fresh (some h) token native)).multishot.toNat ≤ d.handles.remaining := by
            have hp := g.reserve.2
            cases hm : operation.multishotAccept with
            | true =>
              have hc := Operation.reserve_of_multishot hm
              simp only [hm, if_true, Bool.toNat_true]
              omega
            | false =>
              simp only [hm, Bool.false_eq_true, if_false, Bool.toNat_false]
              omega
          cases submitted with
          | error e =>
            refine hb.refused g hf (fun h' r' hh' hr' => ?_) e
            obtain rfl := Option.some.inj hh'
            obtain rfl := g.balanced.kept.handles.unique hr' hl
            change r.kind.isTimer = false
            rw [hk.2]
            rfl
          | ok _ =>
            have ha : Books.Asks id (demand operation (.fresh (some h) token native)) [.requested id operation] := by
              intro e he
              refine ⟨operation, List.mem_singleton.mp he, rfl, fun hm => ?_⟩
              change operation.multishotAccept = false at hm
              simp [hm]
            exact hb.granted g hf g.balanced.exact_.undelivered_le (fun hm => if_pos hm) ha (by rintro ⟨⟩)

lemma removeSocket_refines (live : (h, .fresh .socket) ∈ d.live) : Refines A d (d.removeSocket h) := by
  have hr : 1 ≤ d.refs := g.referenced_le live rfl rfl rfl
  obtain ⟨-, _, ha, -⟩ := g.sound.mem_live.mp live
  rw [removeSocket, freeHandle_eq g.sound ha]
  simp only
  rw [subRefs_eq (by exact hr)]
  exact drop_refines g live rfl rfl (by simp [Effect.Lets])

lemma withdraw_eq (live : (h, .fresh .socket) ∈ d.live) : d.withdraw h = { d with
      handles := (d.handles.remove h.key).1
      refs := d.refs - 1
      trace := d.trace ++ [Effect.released h, .freed h] } := by
  have hr : 1 ≤ d.refs := g.referenced_le live rfl rfl rfl
  obtain ⟨-, _, ha, -⟩ := g.sound.mem_live.mp live
  have hd : (d.releaseBackend h).Sound :=
    g.sound.edit rfl (.refl g.sound.handles) (.refl g.sound.ops) (by simp [releaseBackend, note])
      (by simp [releaseBackend, note])
  rw [withdraw, removeSocket, freeHandle_eq hd (by exact ha)]
  simp only
  rw [subRefs_eq (by exact hr)]
  simp [releaseBackend, note]

lemma withdraw_refines (live : (h, .fresh .socket) ∈ d.live) : Refines A d (d.withdraw h) := by
  rw [withdraw_eq g live]
  exact drop_refines g live rfl rfl (by simp [Effect.Lets])

lemma withdraw_live (live : (h, .fresh .socket) ∈ d.live) : d.live = (h, .fresh .socket) ::ₘ (d.withdraw h).live := by
  rw [withdraw_eq g live]
  exact remove_live g.sound live

lemma attach_refines (attached : Handle → Result Unit) (A : Leave) (leave : A.opens) :
    Refines A d (d.attach attached).1 := by
  rw [attach]
  rcases newHandle_cases d .socket with ⟨e, hn⟩ | ⟨_, h, hn⟩ <;> rw [hn]
  · exact .refl g
  · obtain ⟨-, ho, hl⟩ := newHandle_ok g (by simp) hn
    have hp := ho A leave
    simp only
    cases attached h with
    | error => exact hp.trans (removeSocket_refines hp.good (mem_head hl))
    | ok => exact hp

lemma attach_ok (hn : d.attach attached = (d', .ok h)) : d'.live = (h, .fresh .socket) ::ₘ d.live := by
  rw [attach] at hn
  rcases newHandle_cases d .socket with ⟨e, hw⟩ | ⟨_, h', hw⟩ <;> rw [hw] at hn
  · cases (Prod.mk.inj hn).2
  · simp only at hn
    cases ha : attached h' with
    | error =>
      rw [ha] at hn
      cases (Prod.mk.inj hn).2
    | ok =>
      rw [ha] at hn
      obtain ⟨rfl, he⟩ := Prod.mk.inj hn
      cases he
      exact (newHandle_ok g (by simp) hw).2.2

end

lemma openSocket_eq (d : Driver) (opened : Result Unit) : d.openSocket opened = d.attach fun _ => opened := rfl

variable (g : d.Good)
include g

lemma submitFresh_spec (live : (h, .fresh .socket) ∈ d.live) (operation : Operation) (token : Token)
    (submitted : Result Unit) :
    Answers d (d.submitFresh h operation token submitted) ∧
      ∀ id, (d.submitFresh h operation token submitted).2 = .ok id →
        .accepted id ∈ (d.submitFresh h operation token submitted).1.trace := by
  have hu := submit_submitted g h operation token submitted
  rw [submitFresh]
  cases hs : d.submit h operation token submitted with
  | mk d₁ res =>
    rw [hs] at hu
    cases res with
    | ok => exact ⟨hu.answers, hu.accepted⟩
    | error e =>
      refine ⟨fun A leave issues => ?_, nofun⟩
      have hr := hu.answers A leave nofun
      have hl : d₁.live = d.live := hu.live e rfl
      exact hr.trans (withdraw_refines hr.good (hl ▸ live))

lemma expectConnect_refines (id : OpId) (deadline : Option Instant) : Refines A d (d.expectConnect id deadline) := by
  cases deadline with
  | none => exact .refl g
  | some => exact .of_same g ⟨{ g.sound with }, rfl, rfl⟩

lemma connect_answers (deadline : Option Instant) (token : Token) (opened submitted : Result Unit) :
    Answers d (d.connect deadline token opened submitted) := by
  have hp := attach_refines g fun _ => opened
  rw [connect, openSocket_eq]
  cases ho : d.attach fun _ => opened with
  | mk d₁ res =>
    rw [ho] at hp
    cases res with
    | error => exact fun A leave _ => hp A leave
    | ok h =>
      have g₁ := (hp .all trivial).good
      have hf := (submitFresh_spec g₁ (mem_head (attach_ok g ho)) .connect token submitted).1
      refine .after hp ?_
      simp only
      cases hs : d₁.submitFresh h .connect token submitted with
      | mk d₂ res =>
        rw [hs] at hf
        cases res with
        | error => exact fun A leave _ => hf A leave nofun
        | ok id =>
          intro A leave iss
          have hu := hf A leave fun _ => iss rfl
          exact hu.trans (expectConnect_refines hu.good id deadline)

lemma tcpConnect_answers (connectTimeout : Option Duration) (now : Instant) (token : Token)
    (opened submitted : Result Unit) : Answers d (d.tcpConnect connectTimeout now token opened submitted) := by
  rw [tcpConnect]
  split
  · exact .refl g _
  · exact connect_answers g _ token opened submitted

lemma tcpConnectAdopted_spec (token : Token) (attached submitted : Result Unit) :
    Answers d (d.tcpConnectAdopted token attached submitted) ∧
      ∀ p, (d.tcpConnectAdopted token attached submitted).2 = .ok p →
        .accepted p.2 ∈ (d.tcpConnectAdopted token attached submitted).1.trace := by
  rw [tcpConnectAdopted]
  rcases newHandle_cases d .socket with ⟨e, hn⟩ | ⟨d₁, h, hn⟩ <;> rw [hn]
  · exact ⟨.refl g e, nofun⟩
  · obtain ⟨-, ho, hl⟩ := newHandle_ok g (by simp) hn
    have g₁ := (ho .all trivial).good
    simp only
    cases attached with
    | error =>
      exact ⟨fun A leave _ => (ho A leave).trans (removeSocket_refines g₁ (mem_head hl)), nofun⟩
    | ok _ =>
      obtain ⟨ha, hd⟩ := submitFresh_spec g₁ (mem_head hl) .connect token submitted
      simp only
      cases hs : d₁.submitFresh h .connect token submitted with
      | mk d₂ res =>
        rw [hs] at ha hd
        cases res with
        | error => exact ⟨.after ho fun A leave _ => ha A leave nofun, nofun⟩
        | ok id =>
          refine ⟨.after ho fun A leave iss => ha A leave fun _ => iss rfl, fun p hp => ?_⟩
          cases hp
          exact hd id rfl

lemma sendHandle_submitted (pipe h : Handle) (token : Token) (submitted : Result Unit) :
    Submitted d (d.sendHandle pipe h token submitted) := by
  rw [sendHandle]
  cases d.resource h with
  | error e => exact .refl g e
  | ok =>
    simp only
    split
    · exact .refl g _
    · exact submit_submitted g pipe (.sendHandle h) token submitted

lemma watch_answers (operation : Operation) (token : Token) (bound submitted : Result Unit) :
    Answers d (d.watch operation token bound submitted) := by
  rw [watch]
  rcases newHandle_cases d .socket with ⟨e, hn⟩ | ⟨d₁, h, hn⟩ <;> rw [hn]
  · exact .refl g e
  · obtain ⟨-, ho, hl⟩ := newHandle_ok g (by simp) hn
    have g₁ := (ho .all trivial).good
    refine .after ho ?_
    simp only
    cases bound with
    | error => exact fun A leave _ => withdraw_refines g₁ (mem_head hl)
    | ok _ =>
      have ha := (submitFresh_spec g₁ (mem_head hl) operation token submitted).1
      simp only
      cases hs : d₁.submitFresh h operation token submitted with
      | mk d₂ res =>
        rw [hs] at ha
        cases res with
        | error => exact fun A leave _ => ha A leave nofun
        | ok => exact fun A leave iss => ha A leave fun _ => iss rfl

end Driver

end Turnloop
