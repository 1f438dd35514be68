import Turnloop.Postgres.Session

/-! What the authentication of a session comes to. -/

namespace Turnloop.Postgres

open Connection List

variable {U : Upstream} {c c' : Connection U} {log : List Entry} {r : Except Error (Option Event)} {v : Option Bool}

inductive Entry
  /-- An exchange begins, with or without channel binding, before or after the server said that all is well. -/
  | started (plus late : Bool)
  | final (verified : Bool)
  | connected
  deriving DecidableEq

def Step.entries (s : Step U) : List Entry :=
  match s.call, s.result with
  | .startScram _, .ok _ =>
    match s.before.state with
    | .scram plus => [.started plus s.before.authOk]
    | _ => []
  | .nextEvent, .ok (some .connected) => s.before.verdicts.map .final ++ [Entry.connected]
  | .nextEvent, _ => s.before.verdicts.map .final
  | _, _ => []

def login (trace : List (Step U)) : List Entry := trace.flatMap Step.entries

@[simp] lemma login_concat (trace : List (Step U)) (s : Step U) : login (trace ++ [s]) = login trace ++ s.entries := by
  simp [login]

inductive Standing
  | none
  | opened (plus : Bool)
  | verified (plus : Bool)
  | failed (plus : Bool)

namespace Standing

def next : Standing → Entry → Standing
  | _, .started plus _ => opened plus
  | opened plus, .final true => verified plus
  | opened plus, .final false => failed plus
  | s, _ => s

def plus : Standing → Bool
  | none => false
  | opened plus | verified plus | failed plus => plus

def isOpen : Standing → Bool
  | opened _ => true
  | _ => false

def Good (binding : Bool) : Standing → Prop
  | none => binding = false
  | verified plus => binding = true → plus = true
  | _ => False

end Standing

def standing (log : List Entry) : Standing := log.foldl Standing.next .none

@[simp] lemma standing_concat (log : List Entry) (e : Entry) : standing (log ++ [e]) = (standing log).next e := by
  simp [standing]

structure Honest (log : List Entry) : Prop where
  verified : .final false ∉ log
  early : ∀ plus, .started plus true ∉ log

lemma Honest.of_append (h : Honest (log ++ rest)) : Honest log :=
  ⟨fun hm => h.verified (mem_append_left _ hm), fun plus hm => h.early plus (mem_append_left _ hm)⟩

lemma Honest.not_failed (h : Honest log) : standing log ≠ .failed plus := by
  induction log using reverseRecOn with
  | nil => simp [standing]
  | append_singleton log e ih =>
    rw [standing_concat]
    have hl := ih h.of_append
    cases e with
    | started => simp [Standing.next]
    | connected => simpa [Standing.next] using hl
    | final v =>
      cases v with
      | false => exact absurd (mem_append_right _ (mem_singleton_self _)) h.verified
      | true =>
        cases hs : standing log with
        | failed =>
          rw [hs] at hl
          simpa [Standing.next] using hl
        | _ => simp [Standing.next]

def Unstarted (log : List Entry) : Prop := ∀ plus late, .started plus late ∉ log

lemma standing_none (h : standing log = .none) : Unstarted log := by
  induction log using reverseRecOn with
  | nil => simp [Unstarted]
  | append_singleton log e ih => 
    rw [standing_concat] at h
    have hn : standing log = .none ∧ ∀ plus late, e ≠ .started plus late := by
      cases e with
      | started => simp [Standing.next] at h
      | connected => exact ⟨by simpa [Standing.next] using h, by simp⟩
      | final v => cases hs : standing log <;> cases v <;> simp_all [Standing.next]
    intro plus late hm
    rcases mem_append.mp hm with hm | hm
    · exact ih hn.1 plus late hm
    · exact hn.2 plus late (mem_singleton.mp hm).symm

lemma Unstarted.concat (h : Unstarted log) (he : ∀ plus late, e ≠ .started plus late) : Unstarted (log ++ [e]) := by
  intro plus late hm
  rcases mem_append.mp hm with hm | hm
  · exact h plus late hm
  · exact he plus late (mem_singleton.mp hm).symm

lemma standing_opened (h : standing log = .opened plus) :
    ∃ (a : List Entry) (late : Bool) (b : List Entry), log = a ++ .started plus late :: b ∧ Unstarted b := by
  induction log using reverseRecOn with
  | nil => simp [standing] at h
  | append_singleton log e ih =>
    rw [standing_concat] at h
    cases e with
    | started p late =>
      obtain rfl : p = plus := by simpa [Standing.next] using h
      exact ⟨log, late, [], rfl, by simp [Unstarted]⟩
    | connected =>
      obtain ⟨a, late, b, rfl, hb⟩ := ih (by simpa [Standing.next] using h)
      exact ⟨a, late, b ++ [Entry.connected], by simp, hb.concat (by simp)⟩
    | final v => cases hs : standing log <;> cases v <;> simp_all [Standing.next]

def Exchanged (plus : Bool) (log : List Entry) : Prop :=
  ∃ (a : List Entry) (late : Bool) (b d : List Entry), log = a ++
    .started plus late :: (b ++ .final true :: d) ∧ Unstarted b

lemma standing_verified (h : standing log = .verified plus) : ∃ (a : List Entry) (late : Bool) (b d : List Entry),
      log = a ++ .started plus late :: (b ++ .final true :: d) ∧ Unstarted b ∧ Unstarted d := by
  induction log using reverseRecOn with
  | nil => simp [standing] at h
  | append_singleton log e ih =>
    rw [standing_concat] at h
    cases e with
    | started => simp [Standing.next] at h
    | connected =>
      obtain ⟨a, late, b, d, rfl, hb, hd⟩ := ih (by simpa [Standing.next] using h)
      exact ⟨a, late, b, d ++ [Entry.connected], by simp, hb, hd.concat (by simp)⟩
    | final v =>
      cases hs : standing log with
      | opened p =>
        cases v with
        | false => simp [Standing.next, hs] at h
        | true =>
          obtain rfl : p = plus := by simpa [Standing.next, hs] using h
          obtain ⟨a, late, b, rfl, hb⟩ := standing_opened hs
          exact ⟨a, late, b, [], by simp, hb, by simp [Unstarted]⟩
      | verified p =>
        obtain ⟨a, late, b, d, rfl, hb, hd⟩ := ih (by cases v <;> simp_all [Standing.next])
        exact ⟨a, late, b, d ++ [Entry.final v], by simp, hb, hd.concat (by simp)⟩
      | _ => cases v <;> simp [Standing.next, hs] at h

structure Tracks (log : List Entry) (c : Connection U) : Prop where
  opened : c.scram.isSome = (standing log).isOpen
  plus : c.state = .ssl ∨ c.state = .tls ∨ c.state = .auth → c.scramPlus = (standing log).plus
  asked : ∀ p, c.state = .scram p → c.scramPlus = p
  good : Honest log → c.authOk = true → (standing log).Good c.config.channelBindingRequired

structure Same (c c' : Connection U) : Prop where
  scram : c'.scram = c.scram
  scramPlus : c'.scramPlus = c.scramPlus
  authOk : c'.authOk = c.authOk
  config : c'.config = c.config

section

variable (ht : Tracks log c)
include ht

lemma Tracks.same (hl : log' = log) (hs : Same c c')
    (he : c'.state = .ssl ∨ c'.state = .tls ∨ c'.state = .auth → c.state = .ssl ∨ c.state = .tls ∨ c.state = .auth)
    (ha : ∀ p, c'.state = .scram p → c.state = .scram p) : Tracks log' c' := by
  subst hl
  obtain ⟨hm, hp, ho, hc⟩ := hs
  refine ⟨hm ▸ ht.opened, fun h => hp ▸ ht.plus (he h), fun p h => hp ▸ ht.asked p (ha p h), ?_⟩
  rw [ho, hc]
  exact ht.good

lemma Tracks.accepted (he : c.state = .auth) (hm : c.scram = none)
    (hp : c.config.channelBindingRequired = true → c.scramPlus = true) : Tracks log { c with authOk := true } := by
  refine ⟨ht.opened, ht.plus, ht.asked, fun hh _ => ?_⟩
  have ho : (standing log).isOpen = false := by rw [← ht.opened, hm]; rfl
  rw [ht.plus (Or.inr (Or.inr he))] at hp
  cases hs : standing log with
  | none => simpa [hs, Standing.plus, Standing.Good] using hp
  | opened => simp [hs, Standing.isOpen] at ho
  | verified => simpa only [hs, Standing.plus, Standing.Good] using hp
  | failed p => exact absurd hs (hh.not_failed)

lemma Tracks.final (hm : c.scram.isSome = true) (verified : Bool) :
    Tracks (log ++ [Entry.final verified]) ({ c with scram := none } : Connection U) := by
  rw [ht.opened] at hm
  cases hs : standing log with
  | opened =>
    refine ⟨?_, fun h => ?_, ht.asked, fun hh ho => ?_⟩
    · rw [standing_concat, hs]
      cases verified <;> rfl
    · rw [standing_concat, hs, ht.plus h, hs]
      cases verified <;> rfl
    · have hg := ht.good hh.of_append ho
      simp [hs, Standing.Good] at hg
  | _ => simp [hs, Standing.isOpen] at hm

lemma Tracks.authenticating (he : c.state = .auth) (h : Authenticating c v r c') :
    Tracks (log ++ v.toList.map .final) c' := by
  cases h with
  | refused => simpa using ht
  | accepted hm hl => simpa using ht.accepted he hm hl
  | password => exact ht.same (append_nil _) ⟨rfl, rfl, rfl, rfl⟩ id fun _ => id
  | needed =>
    rw [Option.toList_none, map_nil, append_nil]
    exact ⟨ht.opened, by simp, fun p hp => State.scram.inj hp, ht.good⟩
  | continued s _ hs =>
    rw [Option.toList_none, map_nil, append_nil]
    exact ⟨hs.symm.trans ht.opened, ht.plus, ht.asked, ht.good⟩
  | final verified hs => exact ht.final hs verified

lemma Tracks.handled (h : Handled c tag v r c') : Tracks (log ++ v.toList.map .final) c' := by
  cases h with
  | authentication hs h => exact ht.authenticating hs h
  | connected | fatal => exact ht.same (append_nil _) ⟨rfl, rfl, rfl, rfl⟩ (by simp) (by simp)
  | _ => exact ht.same (append_nil _) ⟨rfl, rfl, rfl, rfl⟩ id fun _ => id

end

lemma Connection.Handled.begins (h : Handled c tag v r c') (hr : r = .ok (some .connected)) :
    v = none ∧ c'.authOk = true := by
  cases h with
  | connected _ _ ho => exact ⟨rfl, ho⟩
  | read _ hl => exact absurd rfl (hl _ hr).connected
  | error he | copyIn he => exact absurd (Option.some.inj (Except.ok.inj hr)) he.connected
  | key _ hn => exact absurd hr (hn _)
  | authentication _ h =>
    cases h with
    | password _ hn | continued _ _ _ hn | final _ _ hn => exact absurd hr (hn _)
    | _ => simp at hr
  | _ => simp at hr

lemma Tracks.advanced (ht : Tracks log c) (n : ℕ) : Tracks log (c.advanced n) :=
  ht.same rfl ⟨rfl, rfl, rfl, rfl⟩ id fun _ => id

lemma Tracks.pulled (ht : Tracks log c) (h : Pulled c vs r c') :
    Tracks (log ++ vs.map .final) c' ∧ (r = .ok (some .connected) → c'.authOk = true) := by
  induction h generalizing log with
  | idle | refused | withdrawn | declined => exact ⟨ht.same (append_nil _) ⟨rfl, rfl, rfl, rfl⟩ id fun _ => id, by simp⟩
  | closed => exact ⟨ht.same (append_nil _) ⟨rfl, rfl, rfl, rfl⟩ (by simp) (by simp), by simp⟩
  | tls hl => exact ⟨ht.same (append_nil _) ⟨rfl, rfl, rfl, rfl⟩ (fun _ => .inl hl) (by simp), by simp⟩
  | plain hl _ _ ih => exact ih (ht.same rfl ⟨rfl, rfl, rfl, rfl⟩ (fun _ => .inl hl) (by simp [startup]))
  | message _ _ _ h₁ _ ih =>
    rw [map_append, ← append_assoc]
    exact ih ((ht.advanced _).handled h₁)
  | last _ _ _ h => exact ⟨(ht.advanced _).handled h, fun hr => (h.begins hr).2⟩

def Founded (binding : Bool) (log : List Entry) : Prop :=
  ∀ pre post, log = pre ++ .connected :: post → Honest pre → (standing pre).Good binding

lemma Founded.extend (hf : Founded binding log) (hr : .connected ∉ rest) : Founded binding (log ++ rest) := by
  intro pre _ hp
  rcases append_eq_append_iff.mp hp with ⟨a, rfl, ha⟩ | ⟨a, hl, ha⟩
  · exact absurd (ha ▸ mem_append_right a (mem_cons_self)) hr
  · cases a with
    | nil => exact absurd (nil_append rest ▸ ha ▸ mem_cons_self) hr
    | cons e a =>
      obtain ⟨rfl, rfl⟩ := cons.inj ha
      exact hf pre a hl

lemma Founded.connected (hf : Founded binding log)
    (hg : Honest log → (standing log).Good binding) : Founded binding (log ++ [Entry.connected]) := by
  intro pre post hp
  rcases eq_nil_or_concat post with rfl | ⟨post, e, rfl⟩
  · obtain ⟨rfl, -⟩ := append_inj' hp rfl
    exact hg
  · rw [concat_eq_append, ← cons_append, ← append_assoc] at hp
    exact hf pre post (append_inj' hp rfl).1

lemma Tracks.connected (ht : Tracks log c) : Tracks (log ++ [Entry.connected]) c := by
  have hs : standing (log ++ [Entry.connected]) = standing log := by
    rw [standing_concat]
    cases standing log <;> rfl
  refine ⟨?_, ?_, ht.asked, fun hh => ?_⟩
  · rw [hs]
    exact ht.opened
  · rw [hs]
    exact ht.plus
  · rw [hs]
    exact ht.good hh.of_append

lemma entries_pull (c : Connection U) (r : Except Error (Option Event)) :
    (r = .ok (some .connected) ∧ (⟨c, .nextEvent, r⟩ : Step U).entries = c.verdicts.map .final ++ [Entry.connected]) ∨
    (⟨c, .nextEvent, r⟩ : Step U).entries = c.verdicts.map .final := by
  rcases r with e | _ | e
  · exact .inr rfl
  · exact .inr rfl
  · cases e with
    | connected => exact .inl ⟨rfl, rfl⟩
    | _ => exact .inr rfl

structure Faithful (binding : Bool) (trace : List (Step U)) (c : Connection U) : Prop where
  config : c.config.channelBindingRequired = binding
  tracks : Tracks (login trace) c
  founded : Founded binding (login trace)

lemma Faithful.silent (hf : Faithful binding trace c) (hs : s.entries = []) (he : Same c c')
    (ha : c'.state = .ssl ∨ c'.state = .tls ∨ c'.state = .auth → c.state = .ssl ∨ c.state = .tls ∨ c.state = .auth)
    (hb : ∀ p, c'.state = .scram p → c.state = .scram p) : Faithful binding (trace ++ [s]) c' := by
  have hl : login (trace ++ [s]) = login trace := by rw [login_concat, hs, append_nil]
  exact ⟨he.config ▸ hf.config, hf.tracks.same hl he ha hb, hl ▸ hf.founded⟩

lemma Tracks.started {plus : Bool} (ht : Tracks log c) (hs : c.state = .scram plus) (scram : U.Scram) (out : Bytes) :
    Tracks (log ++ [Entry.started plus c.authOk])
      { c with output := c.output ++ out, scram := some scram, state := .auth } := by
  refine ⟨?_, fun _ => ?_, by simp, fun hh ho => ?_⟩
  · rw [standing_concat]
    rfl
  · rw [standing_concat]
    exact ht.asked plus hs
  · have hl := hh.early plus
    rw [show c.authOk = true from ho] at hl
    exact absurd (mem_append_right _ (mem_singleton_self _)) hl

lemma Faithful.step {call : Call U}
    (hf : Faithful binding trace c) (h : Called c call r c') : Faithful binding (trace ++ [⟨c, call, r⟩]) c' := by
  cases h with
  | refused hc | unchanged hc =>
    refine hf.silent ?_ ⟨rfl, rfl, rfl, rfl⟩ id fun _ => id
    cases call <;> first | rfl | cases hc
  | consumed | received | scramLost | queried | executed | registered | copied | copyFinished =>
    exact hf.silent rfl ⟨rfl, rfl, rfl, rfl⟩ id fun _ => id
  | overflowed | timedOut | aborted =>
    exact hf.silent rfl ⟨rfl, rfl, rfl, rfl⟩ (by simp [closeDown]) (by simp [closeDown])
  | upgraded _ hl => exact hf.silent rfl ⟨rfl, rfl, rfl, rfl⟩ (fun _ => .inr (.inl hl)) (by simp [startup])
  | @scramStarted plus scram out hs =>
    have he : (⟨c, .startScram scram, .ok none⟩ : Step U).entries = [.started plus c.authOk] := by
      simp [Step.entries, hs]
    refine ⟨hf.config, ?_, ?_⟩
    · rw [login_concat, he]
      exact hf.tracks.started hs scram out
    · rw [login_concat, he]
      exact hf.founded.extend (by simp)
  | ended => exact hf.silent rfl ⟨rfl, rfl, rfl, rfl⟩ (by simp) (by simp)
  | pulled h =>
    obtain ⟨ht, ho⟩ := hf.tracks.pulled h
    have hg : c'.config.channelBindingRequired = binding := h.config ▸ hf.config
    have hb : Founded binding (login trace ++ c.verdicts.map .final) := hf.founded.extend (by simp)
    rcases entries_pull c r with ⟨hr, he⟩ | he
    · refine ⟨hg, ?_, ?_⟩
      · rw [login_concat, he, ← append_assoc]
        exact ht.connected
      · rw [login_concat, he, ← append_assoc]
        exact hb.connected fun hh => hg ▸ ht.good hh (ho hr)
    · refine ⟨hg, ?_, ?_⟩
      · rw [login_concat, he]
        exact ht
      · rw [login_concat, he]
        exact hb

lemma new_faithful {config : Config} (hw : new config = .ok c) : Faithful config.channelBindingRequired [] c := by
  have hn : c.scram = none ∧ c.scramPlus = false ∧ c.authOk = false ∧ c.config = config ∧ ∀ p, c.state ≠ .scram p := by
    unfold new at hw
    split_ifs at hw <;> cases hw <;> exact ⟨rfl, rfl, rfl, rfl, by simp [startup]⟩
  obtain ⟨hm, hp, ho, hc, hs⟩ := hn
  refine ⟨hc ▸ rfl, ⟨?_, fun _ => hp, fun p h => absurd h (hs p), by simp [ho]⟩, by simp [Founded, login]⟩
  rw [hm]
  rfl

lemma run_faithful {config : Config} (hn : new config = .ok c) (calls : List (Call U)) :
    Faithful config.channelBindingRequired ((Session.start c).run calls).trace ((Session.start c).run calls).conn :=
  Session.run_invariant (new_faithful hn) (fun _ _ _ _ _ hf h => hf.step h) calls

lemma mem_behind {α : Type} {x y : α} {a b a' d : List α} (h : a ++ x :: b = a' ++ y :: d) (hx : x ∉ d)
    (hn : x ≠ y) : y ∈ b := by
  rcases append_eq_append_iff.mp h with ⟨m, -, hm⟩ | ⟨m, -, hm⟩
  · cases m with
    | nil => exact absurd (cons.inj hm).1 hn
    | cons z m => exact (cons.inj hm).2 ▸ mem_append_right m mem_cons_self
  · have he : x ∈ y :: d := hm ▸ mem_append_right m mem_cons_self
    exact absurd he (by simp [hx, hn])

theorem scram_verified {config : Config} (hnew : new config = .ok c) (calls : List (Call U)) {pre post : List Entry}
    (hlog : login ((Session.start c).run calls).trace = pre ++ .connected :: post) (hverified : .final false ∉ pre)
    (hearly : ∀ plus, .started plus true ∉ pre) :
    (∀ (a b : List Entry) (plus late : Bool), pre = a ++ .started plus late :: b → .final true ∈ b) ∧
    (config.channelBindingRequired = true → Exchanged true pre) := by
  have hg := (run_faithful hnew calls).founded pre post hlog ⟨hverified, hearly⟩
  cases hs : standing pre with
  | none =>
    rw [hs] at hg
    refine ⟨fun a b plus late hp => ?_, fun hi => by simp [hi, Standing.Good] at hg⟩
    exact absurd (hp ▸ mem_append_right a mem_cons_self) (standing_none hs plus late)
  | verified =>
    rw [hs] at hg
    obtain ⟨a, late, b, d, hp, hb, hd⟩ := standing_verified hs
    refine ⟨fun a' b' plus' late' hp' => ?_, fun hi => ⟨a, late, b, d, ?_, hb⟩⟩
    · rw [hp', ← cons_append, ← append_assoc] at hp
      exact mem_behind hp (hd plus' late') (by simp)
    · rw [hp, hg hi]
  | opened | failed => simp [hs, Standing.Good] at hg

def binding : Config := { Config.default with ssl := .require, channelBindingRequired := true }

def bound : Connection Upstream.sample := { fresh binding with state := .ssl, output := sslRequest }

def exchange (last : Bytes) : List (Call Upstream.sample) :=
  [.receive [83], .nextEvent, .consumeOutput 8, .tlsEstablished true,
    .receive (message 82 ([0, 0, 0, 10] ++ ascii "SCRAM-SHA-256-PLUS" ++ [0, 0])), .nextEvent, .startScram true,
    .receive (message 82 ([0, 0, 0, 12] ++ last)), .nextEvent,
    .receive (message 82 [0, 0, 0, 0] ++ message 90 [73]), .nextEvent]

theorem scram_verified_exchange :
    new binding = .ok bound ∧
    login ((Session.start bound).run (exchange [1])).trace = [.started true false, .final true] ++ .connected :: [] ∧
    Exchanged true [.started true false, .final true] := by
  have hn : new binding = .ok bound := rfl
  have hl : login ((Session.start bound).run (exchange [1])).trace =
      [.started true false, .final true] ++ .connected :: [] := by decide +kernel
  exact ⟨hn, hl, (scram_verified hn (exchange [1]) hl (by simp) (by simp)).2 rfl⟩

def trusting : Connection Upstream.sample := (fresh Config.default).startup

def lateExchange : List (Call Upstream.sample) :=
  [.receive (message 82 [0, 0, 0, 0] ++ message 82 ([0, 0, 0, 10] ++ ascii "SCRAM-SHA-256" ++ [0, 0])), .nextEvent,
    .startScram false, .receive (message 90 [73]), .nextEvent]

theorem scram_bypassed :
    new binding = .ok bound ∧
    login ((Session.start bound).run (exchange [2])).trace = [.started true false, .final false, .connected] ∧
    new Config.default = .ok trusting ∧
    login ((Session.start trusting).run lateExchange).trace = [.started false true, .connected] := by
  refine ⟨rfl, ?_, rfl, ?_⟩
  · decide +kernel
  · decide +kernel

end Turnloop.Postgres
