import Turnloop.Postgres.Session

/-! The boundary that the upgrade to TLS draws. -/

namespace Turnloop.Postgres

open Connection
open List hiding next

variable {U : Upstream} {c c' : Connection U}
variable {r : Except Error (Option Event)} {trace : List (Step U)} {vs : List Bool} {call : Call U} {s : Step U}
    {config : Config}

def Step.keeps (s : Step U) (got : Bytes) : Bytes :=
  match s.call, s.result with
  | .tlsEstablished _, .ok _ => []
  | .receive bytes, .ok _ => got ++ bytes
  | _, _ => got

def since (trace : List (Step U)) : Bytes := trace.foldl (fun got s => s.keeps got) []

@[simp] lemma since_concat (trace : List (Step U)) (s : Step U) : since (trace ++ [s]) = s.keeps (since trace) := by
  simp [since]

@[simp] lemma Step.keeps_error {e : Error} {got : Bytes} : (⟨c, call, .error e⟩ : Step U).keeps got = got := by
  cases call <;> rfl

def Waits : State → Prop
  | .ssl | .tls | .closing | .closed => True
  | _ => False

structure Guarded (trace : List (Step U)) (c : Connection U) : Prop where
  state : Waits c.state
  output : sent trace ++ c.unsent <+: sslRequest
  copyIn : c.copyIn = false
  silent : .connected ∉ events trace

lemma Guarded.quiet (hg : Guarded trace c) (he : s.sends = [])
    (hv : s.event ≠ some .connected) (hs : Waits c'.state) (hu : c'.unsent <+: c.unsent)
    (hc : c'.copyIn = false) : Guarded (trace ++ [s]) c' := by
  refine ⟨hs, ?_, hc, ?_⟩
  · rw [sent_concat, he, append_nil]
    exact ((prefix_append_right_inj _).mpr hu).trans hg.output
  · rw [events_concat]
    simp only [mem_append, Option.mem_toList, not_or]
    exact ⟨hg.silent, hv⟩

lemma Guarded.pull (hg : Guarded trace c)
    (hl : c.config.ssl = .require) (h : Pulled c vs r c') : Guarded (trace ++ [⟨c, .nextEvent, r⟩]) c' := by
  have hw : ¬ (c.state = .auth ∨ c.state = .ready) := by
    have hs := hg.state
    rintro (h | h) <;> rw [h] at hs <;> exact hs
  cases h with
  | idle | refused | withdrawn | declined => exact hg.quiet rfl (by simp) hg.state (prefix_refl _) hg.copyIn
  | closed | tls => exact hg.quiet rfl (by simp) trivial (prefix_refl _) hg.copyIn
  | plain _ hp => simp [hl] at hp
  | message ho | last ho => exact absurd ho hw

lemma Guarded.down (hg : Guarded trace c) (he : s.sends = [])
    (hv : s.event = none) (reason : Error) : Guarded (trace ++ [s]) (c.closeDown reason) :=
  hg.quiet he (by simp [hv]) trivial nil_prefix rfl

lemma Guarded.step (hg : Guarded trace c)
    (hl : c.config.ssl = .require) (h : Called c call r c') (hu : (⟨c, call, r⟩ : Step U).upgrades = false) :
    Guarded (trace ++ [⟨c, call, r⟩]) c' := by
  have hs := hg.state
  cases h with
  | refused => exact hg.quiet (by simp) (by simp) hg.state (prefix_refl _) hg.copyIn
  | unchanged hc =>
    refine hg.quiet ?_ (by simp) hg.state (prefix_refl _) hg.copyIn
    cases call <;> first | rfl | cases hc
  | consumed n hn hr =>
    refine ⟨hg.state, ?_, hg.copyIn, by simpa using hg.silent⟩
    rw [sent_concat, unsent, hr]
    change (sent trace ++ c.unsent.take n) ++ c.unsent.drop n <+: sslRequest
    rw [append_assoc, take_append_drop]
    exact hg.output
  | received => exact hg.quiet rfl (by simp) hg.state (prefix_refl _) hg.copyIn
  | overflowed | timedOut | aborted => exact hg.down rfl rfl _
  | upgraded => cases hu
  | scramLost _ _ _ h | scramStarted _ _ h | queried _ _ _ _ h | executed _ _ _ _ h | registered _ _ _ _ h
  | ended _ h =>
    exact absurd hs (by rw [h]; exact id)
  | copied _ _ h | copyFinished _ _ h => exact absurd (hg.copyIn.symm.trans h) (by simp)
  | pulled h => exact hg.pull hl h

lemma advanced_available (c : Connection U) (n : ℕ) : (c.advanced n).available = c.available.drop n := by
  simp [available, advanced, drop_drop]

lemma Connection.Pulled.reads (h : Pulled c vs r c') : c'.available <:+ c.available := by
  have ha : ∀ (c : Connection U) n, (c.advanced n).available <:+ c.available := by
    intro c n
    rw [advanced_available]
    exact drop_suffix n _
  induction h with
  | idle | refused | withdrawn | closed => exact suffix_refl _
  | tls | declined => exact ha _ 1
  | plain _ _ _ ih => exact ih.trans (ha _ 1)
  | message _ _ _ h₁ _ ih =>
    rw [h₁.input] at ih
    exact ih.trans (ha _ _)
  | last _ _ _ h =>
    rw [h.input]
    exact ha _ _

lemma Connection.Handled.not_tls {tag : Tag} {v : Option Bool} (h : Handled c tag v r c')
    (hs : c.state = .auth ∨ c.state = .ready) : c'.state ≠ .tls := by
  have hn : c.state ≠ .tls := by rcases hs with h | h <;> simp [h]
  cases h with
  | authentication _ h =>
    cases h with
    | needed => simp
    | _ => exact hn
  | connected | fatal => simp
  | _ => exact hn

lemma Connection.Pulled.drained (h : Pulled c vs r c') (he : c.state = .tls → c.available = []) :
    c'.state = .tls → c'.available = [] := by
  induction h with
  | idle | refused | withdrawn => exact he
  | closed => simp
  | @tls c _ hi =>
    intro _
    simp [available, advanced, hi]
  | declined => exact fun h => by simp_all [advanced]
  | plain _ _ _ ih => exact ih (by simp [startup])
  | message hg _ _ h₁ _ ih => exact ih fun hl => absurd hl (h₁.not_tls hg)
  | last hg _ _ h => exact fun hl => absurd hl (h.not_tls hg)

structure Fresh (trace : List (Step U)) (c : Connection U) : Prop where
  drained : c.state = .tls → c.available = []
  since : upgraded trace = true → c.available <:+ since trace

lemma Fresh.same (hf : Fresh trace c) (hu : s.upgrades = false)
    (hk : ∀ got, s.keeps got = got) (hi : c'.available = c.available) (hs : c'.state = .tls → c.state = .tls) :
    Fresh (trace ++ [s]) c' := by
  refine ⟨fun h => hi.trans (hf.drained (hs h)), fun h => ?_⟩
  rw [upgraded_concat, hu, Bool.or_false] at h
  rw [since_concat, hk, hi]
  exact hf.since h

lemma Fresh.step (hf : Fresh trace c) (h : Called c call r c') : Fresh (trace ++ [⟨c, call, r⟩]) c' := by
  cases h with
  | refused => exact hf.same (by simp) (by simp) rfl id
  | unchanged hc =>
    refine hf.same ?_ ?_ rfl id
    · cases call <;> first | rfl | cases hc
    · cases call <;> first | exact fun _ => rfl | cases hc
  | consumed | scramLost | queried | executed | registered | copied | copyFinished =>
    exact hf.same rfl (fun _ => rfl) rfl id
  | received bytes hs =>
    refine ⟨fun h => absurd h hs.1, fun h => ?_⟩
    have hu : upgraded trace = true := by simpa [Step.upgrades] using h
    obtain ⟨read, hr⟩ := hf.since hu
    rw [since_concat]
    exact ⟨read, by simp [available, Step.keeps, ← hr, append_assoc]⟩
  | overflowed | timedOut | aborted => exact hf.same rfl (fun _ => rfl) rfl (by simp [closeDown])
  | upgraded available hs =>
    refine ⟨by simp [startup], fun _ => ?_⟩
    have he := hf.drained hs
    rw [since_concat]
    change c.available <:+ _
    rw [he]
    exact nil_suffix
  | scramStarted | ended => exact hf.same rfl (fun _ => rfl) rfl (by simp)
  | pulled h =>
    refine ⟨h.drained hf.drained, fun hu => ?_⟩
    have hu : upgraded trace = true := by simpa [Step.upgrades] using hu
    rw [since_concat]
    exact h.reads.trans (hf.since hu)

lemma new_fresh (hn : new config = .ok c) : Fresh [] c := by
  unfold new at hn
  split_ifs at hn <;> cases hn <;> exact ⟨by simp [startup], by simp [upgraded]⟩

lemma new_config (hn : new config = .ok c) : c.config = config := by
  unfold new at hn
  split_ifs at hn <;> cases hn <;> rfl

lemma new_guarded (hn : new config = .ok c) (hl : config.ssl = .require) : Guarded [] c := by
  unfold new at hn
  split_ifs at hn with _ _ _ hd
  · simp [hl] at hd
  · cases hn
    exact ⟨trivial, prefix_refl _, rfl, by simp [events]⟩

theorem tls_boundary {config : Config} (hnew : new config = .ok c) (calls : List (Call U)) :
    let s := (Session.start c).run calls
    (config.ssl = .require → upgraded s.trace = false → sent s.trace ++ s.conn.unsent <+: sslRequest ∧
      .connected ∉ events s.trace) ∧
    (upgraded s.trace = true → s.conn.available <:+ since s.trace) := by
  intro s
  have he : s.conn.config = config ∧ Fresh s.trace s.conn ∧
    (config.ssl = .require → upgraded s.trace = false → Guarded s.trace s.conn) := by
    refine Session.run_invariant (P := fun trace c => c.config = config ∧ Fresh trace c ∧
      (config.ssl = .require → upgraded trace = false → Guarded trace c)) ?_ ?_ calls
    · exact ⟨new_config hnew, new_fresh hnew, fun hl _ => new_guarded hnew hl⟩
    · rintro trace c _ r _ ⟨hc, hf, hg⟩ ha
      refine ⟨ha.config.trans hc, hf.step ha, fun hl hu => ?_⟩
      rw [upgraded_concat, Bool.or_eq_false_iff] at hu
      exact (hg hl hu.1).step (hc ▸ hl) ha hu.2
  obtain ⟨-, hf, hg⟩ := he
  exact ⟨fun hl hu => ⟨(hg hl hu).output, (hg hl hu).silent⟩, hf.since⟩

def upgrade : List (Call Upstream.sample) :=
  [.receive [83], .nextEvent, .consumeOutput 8, .tlsEstablished true, .receive (message 82 [0, 0, 0, 0]), .nextEvent]

def requiring : Config := { Config.default with ssl := .require }

def requested : Connection Upstream.sample := { fresh requiring with state := .ssl, output := sslRequest }

theorem tls_boundary_upgrade :
    new requiring = .ok requested ∧
    (.connected ∉ events ((Session.start requested).run (upgrade.take 3)).trace) ∧
    upgraded ((Session.start requested).run upgrade).trace = true ∧
    ((Session.start requested).run upgrade).conn.available <:+ message 82 [0, 0, 0, 0] := by
  have hn : new requiring = .ok requested := rfl
  have hu : upgraded ((Session.start requested).run upgrade).trace = true := by decide +kernel
  exact ⟨hn, ((tls_boundary hn (upgrade.take 3)).1 rfl (by decide +kernel)).2, hu, (tls_boundary hn upgrade).2 hu⟩

end Turnloop.Postgres
