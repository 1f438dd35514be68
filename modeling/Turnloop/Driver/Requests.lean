import Turnloop.Driver.Submissions

/-! The calls whose operations are not on a socket of their own. -/

namespace Turnloop.Driver

open Lib

variable {A : Leave} {d d' : Driver} {h : Handle} {r : Resource} {id : OpId} {o : Op}

lemma chargePort_eq (hr : d.undelivered + 1 ≤ d.config.maxUndelivered) (id : OpId) : d.chargePort id = { d with
      ops := d.ops.modify id.key fun op => { op with port := true }
      undelivered := d.undelivered + 1 } := by
  rw [chargePort]
  exact check_eq hr

lemma admitPort_ok (ha : d.admitPort = .ok ()) : d.undelivered + 1 ≤ d.config.maxUndelivered := by
  rw [admitPort] at ha
  split at ha
  case isTrue => cases ha
  case isFalse hl => exact Nat.lt_of_not_le hl

lemma Good.fits (g : d.Good) (reserved : o.reservedHandles = 0) (single : o.multishot = false) :
    d.reservedHandles + o.reservedHandles + o.multishot.toNat ≤ d.handles.remaining := by
  rw [reserved, single]
  exact g.reserve.2

lemma Entered.admitted (g : d.Good) (e : Entered d d' id o) (reserved : o.reservedHandles = 0)
    (single : o.multishot = false) (port : d.undelivered + o.port.toNat ≤ d.config.maxUndelivered) :
    Submitted d (d'.note (.accepted id), .ok id) :=
  have ha : Books.Asks id o [] := by simp [Books.Asks]
  e.granted g (g.fits reserved single) port (fun _ => reserved) ha fun _ => rfl

lemma Entered.dismissed (g : d.Good) (e : Entered d d' id o) (reserved : o.reservedHandles = 0)
    (single : o.multishot = false) (loose : o.handle = none) (error : Error) :
    Submitted d (d'.abandon id, .error error) := by
  refine e.refused g (g.fits reserved single) (fun h r hh => ?_) error
  rw [loose] at hh
  cases hh

lemma timer_answers (g : d.Good) : Answers d (d.timer due repeats token) := by
  rw [timer]
  split
  case isTrue => exact .refl g _
  case isFalse =>
    rcases newHandle_cases d (.timer none repeats) with ⟨e, hn⟩ | ⟨d₁, h, hn⟩ <;> rw [hn]
    · exact .refl g e
    · obtain ⟨-, hp, hl⟩ := newHandle_ok g (by simp) hn
      have g₁ := (hp .all trivial).good
      refine .after hp ?_
      simp only
      rcases newOp_cases d₁ (some h) token with ⟨e, ho⟩ | ⟨d₂, id, ho⟩ <;> rw [ho]
      · obtain ⟨-, raw, hr, -⟩ := g₁.sound.mem_live.mp (mem_head hl)
        intro A _ _
        simp only
        rw [freeHandle_eq g₁.sound hr]
        exact drop_refines g₁ (mem_head hl) rfl rfl (by simp [Effect.Lets])
      · obtain ⟨_, he, -⟩ := newOp_ok g₁ ho (target_of_live (mem_head hl) rfl fun _ => rfl)
        intro A leave iss
        have ha := (he.admitted g₁ rfl rfl g₁.balanced.exact_.undelivered_le).answers A leave
          fun _ => iss rfl
        have hm := he.mine
        obtain ⟨handles, _, hs, hb⟩ := he.books
        have hh : d₂.live = handles := congrArg Books.handles hb
        cases hs with
        | @on _ r S live =>
          obtain rfl := g₁.balanced.kept.handles.unique (mem_head live) (mem_head hl)
          have hw : h.owner = d₂.owner := (he.sound.mem_live.mp (mem_head hh)).1
          have ht := ha.good.sound.set_handle hh
            { Resource.fresh (.timer (some id) repeats) with pending := 1 }
            (f := fun r => { r with kind := .timer (some id) repeats }) fun raw hr =>
              congrArg (fun r : Resource => { r with kind := .timer (some id) repeats }) hr
          refine ha.trans (.of_step ha.good ⟨{ ht.sound with }, ht.owner, ht.books⟩
            (.tuned (r := { Resource.fresh (.timer none repeats) with pending := 1 }) (.timer (some id) repeats)
              false hh trivial (fun op _ hk => ?_) (by rintro ⟨⟩)))
          obtain rfl := Option.some.inj (Kind.timer.inj hk).1
          exact hm.trans hw.symm

namespace Entered

lemma chargePort (e : Entered d d' id o) (uncharged : o.port = false)
    (room : d.undelivered + 1 ≤ d.config.maxUndelivered) :
    Entered d (d'.chargePort id) id { o with port := true } := by
  have hr : d'.undelivered + 1 ≤ d'.config.maxUndelivered := by
    rw [e.undelivered, e.config, uncharged]
    exact room
  rw [chargePort_eq hr]
  exact e.edit (fun op => { op with port := true }) (fun _ => rfl) rfl rfl rfl rfl rfl (by simp [uncharged])

lemma markNative (e : Entered d d' id o) (foreign : o.native = false) :
    Entered d (d'.markNative id) id { o with native := true } :=
  e.edit (fun op => { op with native := true }) (fun _ => rfl) rfl rfl rfl rfl (by simp [foreign]) rfl

end Entered

lemma externalWait_submitted (g : d.Good) : Submitted d (d.externalWait token submitted) := by
  rw [externalWait]
  cases ha : d.admitPort with
  | error e => exact .refl g e
  | ok _ =>
    have hp := admitPort_ok ha
    simp only
    rcases newOp_cases d none token with ⟨e, hn⟩ | ⟨_, _, hn⟩ <;> rw [hn]
    · exact .refl g e
    · obtain ⟨_, he, -⟩ := newOp_ok g hn nofun
      have hw := he.edit (fun op => { op with externalWait := true }) (fun _ => rfl) rfl rfl rfl rfl rfl rfl
      have hc := hw.chargePort rfl hp
      simp only
      cases submitted with
      | error e => exact hc.dismissed g rfl rfl rfl e
      | ok => exact hc.admitted g rfl rfl hp

lemma submitJob_submitted (g : d.Good) : Submitted d (d.submitJob token submitted) := by
  rw [submitJob]
  cases ha : d.admitPort with
  | error e => exact .refl g e
  | ok _ =>
    have hp := admitPort_ok ha
    simp only
    rcases newOp_cases d none token with ⟨e, hn⟩ | ⟨_, _, hn⟩ <;> rw [hn]
    · exact .refl g e
    · obtain ⟨_, he, -⟩ := newOp_ok g hn nofun
      have hc := he.chargePort rfl hp
      have hj := hc.edit (fun op => { op with jobCancel := some false }) (fun _ => rfl) rfl rfl rfl rfl rfl rfl
      simp only
      cases submitted with
      | error e => exact hj.dismissed g rfl rfl rfl e
      | ok => exact hj.admitted g rfl rfl hp

lemma resolve_submitted (g : d.Good) : Submitted d (d.resolve token resolved submitted) := by
  rw [resolve]
  rcases newOp_cases d none token with ⟨e, hn⟩ | ⟨_, _, hn⟩ <;> rw [hn]
  · exact .refl g e
  · obtain ⟨_, he, hf⟩ := newOp_ok g hn nofun
    simp only
    cases resolved with
    | ok =>
      have ha := he.markNative (hf rfl)
      exact ha.admitted g rfl rfl g.balanced.exact_.undelivered_le
    | error e =>
      have hd := he.dismissed g rfl rfl rfl e
      simp only
      split
      · have hr := hd.answers .all trivial nofun
        exact .after hd (submitJob_submitted hr.good)
      · exact hd

lemma undo_refines (g : d.Good) {opened : Option Handle} :
    (∀ h, opened = some h → ∃ r, (h, r) ∈ d.live ∧ r.pending = 0 ∧ r.closing = none ∧ r.kind.isTimer = false) →
      Refines A d (match opened with
        | none => d
        | some h => d.discardHidden h false) := by
  intro hidden
  cases opened with
  | none => exact .refl g
  | some h =>
    obtain ⟨r, hr, hi, hu, hd⟩ := hidden h rfl
    exact discardHidden_refines g hr hi hu hd false

lemma Entered.counted (e : Entered d d' id o) :
    ∃ native, Entered d (if d'.filesystem = .backend ∧ (d'.ops.get id.key).any Op.native = false then d'.markNative id
      else d') id { o with native := native } := by
  split
  case isFalse => exact ⟨o.native, e⟩
  case isTrue hf =>
    obtain ⟨-, raw, hr, hb⟩ := e.sound.mem_active.mp (mem_head e.active)
    rw [hr] at hf
    exact ⟨true, e.markNative (hb ▸ hf.2)⟩

lemma submitFs_spec (g : d.Good) (opened handle : Option Handle)
    (hidden : ∀ h, opened = some h → ∃ r, (h, r) ∈ d.live ∧ r.pending = 0 ∧ r.closing = none ∧ r.kind.isTimer = false)
    (target : ∀ h, handle = some h → ∃ r, (h, r) ∈ d.live ∧ r.closing = none ∧ (r.hidden = true → r.pending = 0))
    (untimed : ∀ h r, handle = some h → (h, r) ∈ d.live → r.kind.isTimer = false)
    (port : d.filesystem = .pool → d.undelivered + 1 ≤ d.config.maxUndelivered) (token : Token)
    (submitted : Result Unit) :
    Answers d (d.submitFs opened handle token submitted) ∧ ∀ id, (d.submitFs opened handle token submitted).2 = .ok id →
        .accepted id ∈ (d.submitFs opened handle token submitted).1.trace := by
  rw [submitFs]
  rcases newOp_cases d handle token with ⟨e, hn⟩ | ⟨d₁, id, hn⟩ <;> rw [hn]
  · exact ⟨fun A _ _ => undo_refines g hidden, nofun⟩
  · obtain ⟨native, he, -⟩ := newOp_ok g hn target
    have hf := he.edit (fun op => { op with fs := true }) (fun _ => rfl) rfl rfl rfl rfl rfl rfl
    have hc : ∃ port, Entered d (if d₁.filesystem = .pool then Driver.chargePort { d₁ with
          ops := d₁.ops.modify id.key fun op => { op with fs := true } } id
        else { d₁ with ops := d₁.ops.modify id.key fun op => { op with fs := true } })
        id { Op.fresh handle token native with fs := true, port := port } ∧
          d.undelivered + port.toNat ≤ d.config.maxUndelivered := by
      split
      case isTrue hp =>
        have hr := port (he.filesystem ▸ hp)
        exact ⟨true, hf.chargePort rfl hr, hr⟩
      case isFalse => exact ⟨false, hf, g.balanced.exact_.undelivered_le⟩
    obtain ⟨port', hb, hr⟩ := hc
    simp only
    cases submitted with
    | error =>
      obtain ⟨hd, hl⟩ := hb.abandon g (g.fits rfl rfl) untimed
      refine ⟨fun A _ _ => (hd A).trans (undo_refines (hd A).good ?_), nofun⟩
      rw [hl]
      exact hidden
    | ok =>
      obtain ⟨native', ho⟩ := hb.counted
      have ha := ho.admitted g rfl rfl hr
      exact ⟨ha.answers, ha.accepted⟩

lemma fsTarget_ok {kind : Kind} {handle : Option Handle} (ht : d.fsTarget kind handle = .ok ()) {h : Handle}
    (hh : handle = some h) : ∃ r, d.resource h = .ok r ∧ r.closing = none ∧ r.kind = kind := by
  subst hh
  rw [fsTarget] at ht
  cases hr : d.resource h with
  | error =>
    rw [hr] at ht
    cases ht
  | ok r =>
    simp only [hr] at ht
    split at ht
    case isTrue => cases ht
    case isFalse ho =>
      push Not at ho
      exact ⟨r, rfl, ho⟩

lemma fs_spec (g : d.Good) : Answers d (d.fs request token submitted) ∧
      ∀ id, (d.fs request token submitted).2 = .ok id → .accepted id ∈ (d.fs request token submitted).1.trace := by
  rw [fs]
  split
  case isTrue => exact ⟨.refl g _, nofun⟩
  case isFalse =>
    simp only
    generalize hk : (if d.filesystem = .pool then Kind.file else Kind.socket) = kind
    have hu : kind.isTimer = false := by
      rw [← hk]
      split <;> rfl
    cases ha : (if d.filesystem = .pool then d.admitPort else .ok ()) with
    | error e => exact ⟨.refl g e, nofun⟩
    | ok _ =>
      have hp : d.filesystem = .pool → d.undelivered + 1 ≤ d.config.maxUndelivered := by
        intro hl
        rw [if_pos hl] at ha
        exact admitPort_ok ha
      simp only
      cases ht : d.fsTarget kind request.handle with
      | error e => exact ⟨.refl g e, nofun⟩
      | ok _ =>
        simp only
        split
        case isTrue =>
          rcases newHandle_cases d kind with ⟨e, hn⟩ | ⟨d₁, h, hn⟩ <;> rw [hn]
          · exact ⟨.refl g e, nofun⟩
          · have hd : ∀ op repeats, kind ≠ .timer (some op) repeats := by
              rintro op repeats rfl
              cases hu
            obtain ⟨hf, ho, hi⟩ := newHandle_ok g hd hn
            have g₁ := (ho .all trivial).good
            have he := g₁.sound.set_handle hi { Resource.fresh kind with hidden := true }
              (f := fun r => { r with hidden := true }) fun raw hb =>
                congrArg (fun r : Resource => { r with hidden := true }) hb
            have hc (A : Leave) : Refines A d₁ _ := .of_step g₁ he
              (.tuned (r := .fresh kind) kind true hi Kind.same_refl
                (fun op repeats hk => absurd hk (hd op repeats)) fun _ => ⟨rfl, rfl, hu⟩)
            have g₂ := (hc .all).good
            have hl' : Driver.live { d₁ with handles := d₁.handles.modify h.key fun r => { r with hidden := true } } =
                (h, { Resource.fresh kind with hidden := true }) ::ₘ d.live := congrArg Books.handles he.books
            have hp₁ : d₁.filesystem = .pool → d₁.undelivered + 1 ≤ d₁.config.maxUndelivered := by
              obtain ⟨handles, _, trace, -, rfl⟩ := hf
              exact hp
            have hg := target_of_live (r := { Resource.fresh kind with hidden := true }) (mem_head hl') rfl
              fun _ => rfl
            have hs := submitFs_spec g₂ (some h) (some h) (fun h' hh' => ?_) hg (fun h' r hh' hr => ?_) hp₁
              token submitted
            · exact ⟨.after (fun A leave => (ho A leave).trans (hc A)) hs.1, hs.2⟩
            · cases hh'
              exact ⟨_, mem_head hl', rfl, rfl, hu⟩
            · cases hh'
              obtain rfl := g₂.balanced.kept.handles.unique hr (mem_head hl')
              exact hu
        case isFalse =>
          refine submitFs_spec g none request.handle (fun h hh => by cases hh) (fun h hh => ?_)
            (fun h r hh hr => ?_) hp token submitted
          · obtain ⟨r, hr, hm, -⟩ := fsTarget_ok ht hh
            obtain ⟨hi, -, hq⟩ := resource_ok g.sound hr
            exact ⟨r.bare, hi, hm, by simp [Resource.bare, hq]⟩
          · obtain ⟨_, hr', -, rfl⟩ := fsTarget_ok ht hh
            obtain rfl := g.balanced.kept.handles.unique hr (resource_ok g.sound hr').1
            exact hu

end Turnloop.Driver
