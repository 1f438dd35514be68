import Turnloop.Mongodb.Topology

/-! Whole histories of hellos and errors: one primary, its servers, its election. -/

namespace Turnloop.Mongodb.Topology

variable (env : Platform) {t t' u : Topology} {a b address : String} {s : Server} {now : ℕ} {old : Server}

def Primary (t : Topology) (a : String) : Prop := ∃ s, t.servers[a]? = some s ∧ s.kind = .rsPrimary

def maxima (t : Topology) : WithBot ObjectId ×ₗ WithBot ℤ := ranked t.maxElectionId t.maxSetVersion

lemma get_put (t : Topology) (a : String) (s : Server) (b : String) : (t.put a s).servers[b]? = if a =
    b then some s else t.servers[b]? := by
  simp [put, Std.TreeMap.getElem?_insert]

lemma get_remove (t : Topology) (a b : String) : (t.remove a).servers[b]? = if a = b then none else t.servers[b]? := by
  unfold remove
  split_ifs with ha hb hb
  · simp [push, hb]
  · simp [push, Std.TreeMap.getElem?_erase, hb]
  · exact Std.TreeMap.getElem?_eq_none (hb ▸ ha)
  · rfl

lemma mem_iff : a ∈ t.servers ↔ ∃ s, t.servers[a]? = some s := by
  rw [Std.TreeMap.mem_iff_isSome_getElem?, Option.isSome_iff_exists]

lemma mem_put : b ∈ (t.put a s).servers ↔ b = a ∨ b ∈ t.servers := by
  rw [put, Std.TreeMap.mem_insert, Std.compare_eq_iff_eq, eq_comm]

lemma mem_remove : b ∈ (t.remove a).servers ↔ b ∈ t.servers ∧ b ≠ a := by
  rw [mem_iff, mem_iff, get_remove]
  split_ifs with h
  · simp [h]
  · simp [Ne.symm h]

lemma mem_addHost (host : String) : b ∈ (t.addHost now host).servers ↔ b ∈ t.servers ∨ b = host := by
  unfold addHost
  split_ifs with h
  · constructor
    · exact .inl
    · rintro (hb | rfl)
      · exact hb
      · exact h
  · rw [show ((t.put host (Server.unknown now 0)).push (.serverAdded host)).servers =
      (t.put host (.unknown now 0)).servers from rfl, mem_put, or_comm]

lemma mem_addHosts (hosts : List String) : b ∈ (t.addHosts hosts now).servers ↔ b ∈ t.servers ∨ b ∈ hosts := by
  induction hosts generalizing t with
  | nil => simp [addHosts]
  | cons host hosts ih =>
    have hp := ih (t := t.addHost now host)
    rw [mem_addHost] at hp
    rw [List.mem_cons, ← or_assoc]
    exact hp

lemma mem_removeAll (gone : List String) : b ∈ (gone.foldl remove t).servers ↔ b ∈ t.servers ∧ b ∉ gone := by
  induction gone generalizing t with
  | nil => simp
  | cons a gone ih =>
    rw [List.foldl_cons, ih, mem_remove, List.mem_cons, not_or, and_assoc]

lemma mem_keepOnly (hosts : List String) : b ∈ (t.keepOnly hosts).servers ↔ b ∈ t.servers ∧ b ∈ hosts := by
  rw [keepOnly, mem_removeAll, List.mem_filter, Std.TreeMap.mem_keys]
  simp only [Bool.not_eq_true', List.contains_eq_mem, decide_eq_false_iff_not, not_and, not_not]
  exact ⟨fun ⟨hb, hk⟩ => ⟨hb, hk hb⟩, fun ⟨hb, hk⟩ => ⟨hb, fun _ => hk⟩⟩

lemma mem_acceptPrimary : b ∈ (t.acceptPrimary address s now).servers ↔ b ∈ s.hosts := by
  rw [acceptPrimary, mem_keepOnly, mem_addHosts]
  exact ⟨fun h => h.2, fun h => ⟨.inr h, h⟩⟩

structure Quieter (t t' : Topology) : Prop where
  primary : ∀ b, Primary t' b → Primary t b
  maxima : t'.maxima = t.maxima
  kind : t'.kind = t.kind

namespace Quieter

lemma refl (t : Topology) : Quieter t t := ⟨fun _ h => h, rfl, rfl⟩

lemma trans (h : Quieter t u) (h' : Quieter u t') : Quieter t t' :=
  ⟨fun b hb => h.primary b (h'.primary b hb), h'.maxima.trans h.maxima, h'.kind.trans h.kind⟩

lemma foldl {α : Type} {f : Topology → α → Topology} (h : ∀ t x, Quieter t (f t x)) (xs : List α) (t : Topology) :
    Quieter t (xs.foldl f t) := by
  induction xs generalizing t with
  | nil => exact refl t
  | cons x xs ih => exact (h t x).trans (ih (f t x))

end Quieter

lemma primary_put : Primary (t.put a s) b ↔ (b = a ∧ s.kind = .rsPrimary) ∨ (b ≠ a ∧ Primary t b) := by
  unfold Primary
  rw [get_put]
  split_ifs with h
  · simp [h]
  · simp [Ne.symm h]

lemma put_quieter (h : s.kind ≠ .rsPrimary) : Quieter t (t.put a s) := by
  refine ⟨fun b hb => ?_, rfl, rfl⟩
  rcases primary_put.mp hb with ⟨_, hs⟩ | ⟨_, hb⟩
  · exact absurd hs h
  · exact hb

lemma push_quieter : Quieter t (t.push e) := ⟨fun _ h => h, rfl, rfl⟩

lemma remove_kind (t : Topology) (a : String) : (t.remove a).kind = t.kind := by
  unfold remove
  split_ifs <;> rfl

lemma remove_maxima (t : Topology) (a : String) : (t.remove a).maxima = t.maxima := by
  unfold remove
  split_ifs <;> rfl

lemma primary_remove : Primary (t.remove a) b ↔ b ≠ a ∧ Primary t b := by
  unfold Primary
  rw [get_remove]
  split_ifs with h
  · simp [h]
  · simp [Ne.symm h]

lemma remove_quieter (t : Topology) (a : String) : Quieter t (t.remove a) :=
  ⟨fun _ hb => (primary_remove.mp hb).2, remove_maxima t a, remove_kind t a⟩

lemma addHost_quieter {t : Topology} {now : ℕ} {host : String} : Quieter t (t.addHost now host) := by
  unfold addHost
  split_ifs
  · exact .refl t
  · exact (put_quieter (by simp [Server.unknown])).trans push_quieter

lemma addHosts_quieter (hosts : List String) (now : ℕ) : Quieter t (t.addHosts hosts now) :=
  Quieter.foldl (fun _ _ => addHost_quieter) hosts t

lemma keepOnly_quieter (t : Topology) (ho : List String) : Quieter t (t.keepOnly ho) :=
  Quieter.foldl remove_quieter _ t

lemma hintPrimary_quieter : Quieter t (t.hintPrimary primary) := by
  unfold hintPrimary
  split
  · exact .refl t
  · split
    · exact .refl t
    · split_ifs
      · exact put_quieter (by simp)
      · exact .refl t

lemma receiveMember_quieter : Quieter t (t.receiveMember address s now) := by
  have hk : Quieter t
      (if t.kind ≠ .replicaSetWithPrimary then (t.addHosts s.hosts now).hintPrimary s.primary else t) := by
    split_ifs
    · exact (addHosts_quieter s.hosts now).trans hintPrimary_quieter
    · exact .refl t
  simp only [receiveMember]
  split_ifs at hk ⊢
  all_goals first
    | exact hk
    | exact hk.trans (remove_quieter _ _)

lemma primary_demoteOthers : Primary (t.demoteOthers address now) b → b = address := by
  rintro ⟨s, hs, hk⟩
  rw [demoteOthers, Std.TreeMap.getElem?_map] at hs
  obtain ⟨_, -, rfl⟩ := Option.map_eq_some_iff.mp hs
  by_contra hb
  split_ifs at hk with hi
  · simp [Server.unknown] at hk
  · exact hi ⟨hb, hk⟩

lemma recordMaxima_maxima (h : 17 ≤ s.maxWireVersion) : (t.recordMaxima s).maxima =
    ranked s.electionId s.setVersion := by
  rw [recordMaxima, if_pos h, maxima]

def Welcome (t : Topology) (s : Server) : Prop :=
  s.kind = .rsPrimary ∧ (t.setName = none ∨ t.setName = s.setName) ∧ t.stale s = false

inductive Outcome (t : Topology) (address : String) (s : Server) (t' : Topology) : Prop
  | declined (refused : ¬Welcome t s) (quiet : ∀ b, Primary t' b → Primary t b ∧ b ≠ address)
      (maxima : t'.maxima = t.maxima)
  | accepted (welcome : Welcome t s) (only : ∀ b, Primary t' b → b = address)
      (members : ∀ b, b ∈ t'.servers ↔ b ∈ s.hosts)
      (maxima : 17 ≤ s.maxWireVersion → t'.maxima = ranked s.electionId s.setVersion)

lemma not_welcome (h : s.kind ≠ .rsPrimary) : ¬Welcome t s := fun hw => h hw.1

namespace Outcome

lemma of_quieter (h : Quieter (t.put address s) t') (hs : s.kind ≠ .rsPrimary) : Outcome t address s t' := by
  refine .declined (not_welcome hs) (fun b hb => ?_) h.maxima
  rcases primary_put.mp (h.primary b hb) with ⟨_, hk⟩ | ⟨hn, hp⟩
  · exact absurd hk hs
  · exact ⟨hp, hn⟩

lemma replaced (hw : ¬Welcome t s) (h : Quieter (t.put address s) u) (hx : x.kind ≠ .rsPrimary) :
    Outcome t address s (u.put address x) := by
  refine .declined hw (fun b hb => ?_) h.maxima
  rcases primary_put.mp hb with ⟨_, hk⟩ | ⟨hn, hp⟩
  · exact absurd hk hx
  · rcases primary_put.mp (h.primary b hp) with ⟨he, _⟩ | ⟨_, hp⟩
    · exact absurd he hn
    · exact ⟨hp, hn⟩

lemma removed (hw : ¬Welcome t s) (h : Quieter (t.put address s) u) : Outcome t address s (u.remove address) := by
  refine .declined hw (fun b hb => ?_) ((remove_maxima _ _).trans h.maxima)
  obtain ⟨hn, hp⟩ := primary_remove.mp hb
  rcases primary_put.mp (h.primary b hp) with ⟨he, _⟩ | ⟨_, hp⟩
  · exact absurd he hn
  · exact ⟨hp, hn⟩

lemma after (h : Outcome t address s u) (he : t'.servers = u.servers) (hm : t'.maxima = u.maxima) :
    Outcome t address s t' := by
  have hp : ∀ b, Primary t' b → Primary u b := fun b ⟨s, hs, hk⟩ => ⟨s, he ▸ hs, hk⟩
  cases h with
  | declined refused quiet maxima => exact .declined refused (fun b hb => quiet b (hp b hb)) (hm.trans maxima)
  | accepted welcome only members maxima =>
    refine .accepted welcome (fun b hb => only b (hp b hb)) (fun b => ?_) (fun h => hm.trans (maxima h))
    rw [he]
    exact members b

end Outcome

lemma learnName_quieter (t : Topology) (s : Server) : Quieter t (t.learnName s) := by
  unfold learnName
  split_ifs
  · exact ⟨fun _ h => h, rfl, rfl⟩
  · exact .refl t

lemma learnName_stale : (t.learnName s).stale s = t.stale s := by
  unfold learnName
  split_ifs <;> rfl

lemma learnName_name (t : Topology) (s : Server) : (t.learnName s).setName = s.setName ↔ t.setName = none ∨
    t.setName = s.setName := by
  unfold learnName
  split_ifs with h
  · simp [Option.isNone_iff_eq_none.mp h]
  · simp only [Option.isNone_iff_eq_none] at h
    simp [h]

lemma receiveInSet_outcome (t : Topology) (address : String) (s : Server) (now : ℕ) :
    Outcome t address s (((t.put address s).learnName s).receiveInSet address s now) := by
  have hn := learnName_quieter (t.put address s) s
  have hs : ((t.put address s).learnName s).stale s = t.stale s := learnName_stale
  unfold receiveInSet
  split_ifs with he hk
  · exact .removed (fun hw => he ((learnName_name (t.put address s) s).mpr hw.2.1)) hn
  · unfold receivePrimary
    rw [hs]
    split_ifs with h
    · exact .replaced (fun hw => by simp [hw.2.2] at h) hn (by simp [Server.unknown])
    · have hr : Quieter _ (((t.put address s).learnName s).acceptPrimary address s now) :=
        (addHosts_quieter s.hosts now).trans (keepOnly_quieter _ s.hosts)
      have hc : Welcome t s :=
        ⟨hk, (learnName_name (t.put address s) s).mp (not_not.mp he), Bool.eq_false_iff.mpr h⟩
      refine .accepted hc (fun b hb => ?_) (fun b => mem_acceptPrimary) (fun hi => ?_)
      · exact primary_demoteOthers (hr.primary b hb)
      · exact hr.maxima.trans (recordMaxima_maxima hi)
  · exact .of_quieter (hn.trans receiveMember_quieter) hk

lemma becomeSet_outcome (h : Outcome t address s u) : Outcome t address s u.becomeSet := by
  unfold becomeSet
  split_ifs
  · exact h.after rfl rfl
  · exact h

lemma discover_outcome : Outcome t address s ((t.put address s).discover address s now) := by
  have hp := Quieter.refl (t.put address s)
  have he := becomeSet_outcome (receiveInSet_outcome t address s now)
  cases hs : s.kind <;> simp only [discover, hs]
  case standalone | mongos =>
    split_ifs
    · exact (Outcome.of_quieter hp (by simp [hs])).after rfl rfl
    · exact .removed (not_welcome (by simp [hs])) hp
  case rsPrimary | rsSecondary | rsArbiter | rsOther => exact he
  case unknown | possiblePrimary | rsGhost => exact .of_quieter hp (by simp [hs])

lemma recheck_servers (t : Topology) : t.recheck.servers = t.servers := by
  unfold recheck
  split_ifs <;> rfl

lemma recheck_maxima {t : Topology} : t.recheck.maxima = t.maxima := by
  unfold recheck
  split_ifs <;> rfl

lemma primary_congr (h : t'.servers = t.servers) : Primary t' b ↔ Primary t b := by
  rw [Primary, Primary, h]

lemma any_primary {t : Topology} : (t.servers.toList.any fun (_, s) => s.kind = .rsPrimary) = true ↔
    ∃ b, Primary t b := by
  rw [List.any_eq_true]
  constructor
  · rintro ⟨⟨b, s⟩, hm, hk⟩
    exact ⟨b, s, Std.TreeMap.mem_toList_iff_getElem?_eq_some.mp hm, of_decide_eq_true hk⟩
  · rintro ⟨b, s, hg, hk⟩
    exact ⟨(b, s), Std.TreeMap.mem_toList_iff_getElem?_eq_some.mpr hg, decide_eq_true hk⟩

def Settled (t : Topology) : Prop :=
  t.kind.isReplicaSet → (t.kind = .replicaSetWithPrimary ↔ ∃ b, Primary t b)

lemma recheck_settled : Settled t.recheck := by
  intro he
  have hp : (∃ b, Primary t.recheck b) ↔ ∃ b, Primary t b := exists_congr fun _ => primary_congr (recheck_servers t)
  rw [hp, ← any_primary]
  unfold recheck at he ⊢
  by_cases h : t.kind.isReplicaSet = true
  · rw [if_pos h, checkPrimary]
    by_cases ha : (t.servers.toList.any fun (_, s) => s.kind = .rsPrimary) = true
    · simp only [ha, if_true]
    · simp only [ha]
      simp
  · rw [if_neg h] at he
    exact absurd he h

lemma recheck_unknown (t : Topology) : t.recheck.kind = .unknown ↔ t.kind = .unknown := by
  unfold recheck checkPrimary
  cases h : t.kind
  case replicaSetNoPrimary | replicaSetWithPrimary =>
    simp only [TopologyType.isReplicaSet, if_true]
    split_ifs <;> simp
  all_goals simp [TopologyType.isReplicaSet, h]

def Fixed (t : Topology) : Prop := t.kind = .single ∨ t.kind = .sharded

structure Consistent (t : Topology) : Prop where
  undiscovered : t.kind = .unknown → ∀ b, ¬Primary t b
  unique : ¬Fixed t → ∀ a b, Primary t a → Primary t b → a = b
  settled : Settled t

lemma becomeSet_known : t.becomeSet.kind ≠ .unknown := by
  unfold becomeSet
  split_ifs with h
  · simp
  · exact h

lemma discover_unknown (h : (t.discover address s now).kind = .unknown) : t.kind = .unknown ∧ s.kind ≠ .rsPrimary := by
  cases hs : s.kind <;> simp only [discover, hs] at h
  case standalone | mongos =>
    split_ifs at h
    rw [remove_kind] at h
    exact ⟨h, by simp⟩
  case rsPrimary | rsSecondary | rsArbiter | rsOther => exact absurd h becomeSet_known
  case unknown | possiblePrimary | rsGhost => exact ⟨h, by simp⟩

lemma Outcome.consistent (h : Outcome t address s u) (ht : Consistent t) (hf : ¬Fixed t)
    (hu : u.kind = .unknown → t.kind = .unknown ∧ s.kind ≠ .rsPrimary) : Consistent u.recheck := by
  have hp : ∀ b, Primary u.recheck b ↔ Primary u b := fun _ => primary_congr (recheck_servers u)
  refine ⟨fun hk b hb => ?_, fun _ a b ha hb => ?_, recheck_settled⟩
  · obtain ⟨ho, hs⟩ := hu ((recheck_unknown u).mp hk)
    cases h with
    | declined _ quiet => exact ht.undiscovered ho b (quiet b ((hp b).mp hb)).1
    | accepted welcome => exact hs welcome.1
  · cases h with
    | declined _ quiet =>
      exact ht.unique hf a b (quiet a ((hp a).mp ha)).1 (quiet b ((hp b).mp hb)).1
    | accepted _ only => exact (only a ((hp a).mp ha)).trans (only b ((hp b).mp hb)).symm

lemma consistent_fixed (h : Fixed t) : Consistent t := by
  refine ⟨fun hk => ?_, fun hf => absurd h hf, fun he => ?_⟩
  · rcases h with h | h <;> simp [h] at hk
  · rcases h with h | h <;> simp [h, TopologyType.isReplicaSet] at he

lemma Consistent.congr (h : Consistent t) (hp : ∀ b, Primary t' b ↔ Primary t b) (hk : t'.kind = t.kind) :
    Consistent t' := by
  refine ⟨fun hu b hb => ?_, fun hr a b ha hb => ?_, fun he => ?_⟩
  · exact h.undiscovered (hk ▸ hu) b ((hp b).mp hb)
  · refine h.unique (fun hf => hr ?_) a b ((hp a).mp ha) ((hp b).mp hb)
    rwa [Fixed, hk]
  · rw [hk, exists_congr hp]
    exact h.settled (hk ▸ he)

lemma recheck_fixed (h : Fixed t) : t.recheck = t := by
  unfold recheck
  rcases h with h | h <;> simp [h, TopologyType.isReplicaSet]

lemma Quieter.consistent (h : Quieter t u) (ht : Consistent t) : Consistent u.recheck := by
  by_cases hf : Fixed t
  · have hu : Fixed u := by rwa [Fixed, h.kind]
    rw [recheck_fixed hu]
    exact consistent_fixed hu
  · have hp : ∀ b, Primary u.recheck b → Primary t b :=
      fun b hb => h.primary b ((primary_congr (recheck_servers u)).mp hb)
    refine ⟨fun hk b hb => ?_, fun _ a b ha hb => ht.unique hf a b (hp a ha) (hp b hb), recheck_settled⟩
    exact ht.undiscovered (h.kind ▸ (recheck_unknown u).mp hk) b (hp b hb)

lemma classify_free (h : ¬Fixed t) : t.classify address s now = (t.discover address s now).recheck := by
  unfold classify
  cases hk : t.kind
  case single => exact absurd (.inl hk) h
  case sharded => exact absurd (.inr hk) h
  all_goals rfl

lemma classify_fixed (h : Fixed t) : (t.classify address s now).kind = t.kind ∧
    (t.classify address s now).maxima = t.maxima := by
  unfold classify
  rcases h with h | h
  · simp only [h]
    split_ifs
    · exact ⟨h, rfl⟩
    · exact ⟨h, rfl⟩
  · simp only [h]
    split_ifs
    · exact ⟨h, rfl⟩
    · exact ⟨(remove_kind t address).trans h, remove_maxima t address⟩

lemma announce_same (t : Topology) (before : TopologyType) (address : String) :
    (t.announce before address).servers = t.servers ∧ (t.announce before address).kind = t.kind ∧
      (t.announce before address).maxima = t.maxima := by
  simp only [announce]
  split_ifs <;> exact ⟨rfl, rfl, rfl⟩

lemma record_outcome (h : ¬Fixed t) : Outcome t address s (t.record address s now) := by
  obtain ⟨he, -, hm⟩ := announce_same ((t.put address s).classify address s now) t.kind address
  refine .after ?_ he hm
  rw [classify_free (by exact h)]
  exact discover_outcome.after (recheck_servers _) recheck_maxima

lemma record_consistent (ht : Consistent t) (h : ¬Fixed t) : Consistent (t.record address s now) := by
  obtain ⟨he, hi, -⟩ := announce_same ((t.put address s).classify address s now) t.kind address
  refine .congr ?_ (fun b => primary_congr he) hi
  rw [classify_free (by exact h)]
  refine discover_outcome.consistent ht h fun hk => ?_
  exact discover_unknown (t := t.put address s) hk

lemma record_fixed (h : Fixed t) : (t.record address s now).kind = t.kind ∧
    (t.record address s now).maxima = t.maxima := by
  obtain ⟨-, hk, hm⟩ := announce_same ((t.put address s).classify address s now) t.kind address
  obtain ⟨hk', hm'⟩ : ((t.put address s).classify address s now).kind = t.kind ∧
    ((t.put address s).classify address s now).maxima = t.maxima := classify_fixed (by exact h)
  exact ⟨hk.trans hk', hm.trans hm'⟩

-- The events and the generation decide nothing, so an outdated description fares as the one it was made from.
lemma receive_outcome (h : ¬Fixed t) : Outcome t address s (t.receive address s now) := by
  unfold receive
  split_ifs with hs
  · have ho : Outcome (t.push (.clearPool address s.outdated.generation)) address s.outdated
        ((t.push (.clearPool address s.outdated.generation)).record address s.outdated now) :=
      record_outcome (by exact h)
    cases ho with
    | declined refused quiet maxima => exact .declined refused quiet maxima
    | accepted welcome only members maxima => exact .accepted welcome only members maxima
  · exact record_outcome h

lemma receive_consistent (ht : Consistent t) (h : ¬Fixed t) : Consistent (t.receive address s now) := by
  unfold receive
  split_ifs with hs
  · exact record_consistent (ht.congr (fun _ => Iff.rfl) rfl) (by exact h)
  · exact record_consistent ht h

lemma receive_fixed (h : Fixed t) : (t.receive address s now).kind = t.kind ∧
    (t.receive address s now).maxima = t.maxima := by
  unfold receive
  split_ifs with hs
  · exact record_fixed (t := t.push (.clearPool address s.outdated.generation)) (by exact h)
  · exact record_fixed h

variable {hello : Document} {rtt : ℕ}

def describe (t : Topology) (old : Server) (hello : Document) (now rtt : ℕ) : Server :=
  Server.parse env hello now old rtt t.heartbeat

/-- A hello is heard if its server is known and it is not older than what the server said before. -/
def Hears (t : Topology) (address : String) (hello : Document) (old : Server) : Prop :=
  t.servers[address.toLower]? = some old ∧
    older old.topologyVersion (Document.getDocument hello "topologyVersion") false = false

lemma update_cases (t : Topology) (address : String) (hello : Document) (now rtt : ℕ) :
    (∃ old, Hears t address hello old ∧ t.update env address hello now rtt =
      t.receive address.toLower (describe env t old hello now rtt) now) ∨
    ((∀ old, ¬Hears t address hello old) ∧ t.update env address hello now rtt = t) := by
  unfold update Hears
  cases hg : t.servers[address.toLower]? with
  | none => exact Or.inr ⟨by simp, rfl⟩
  | some old =>
    by_cases ho : older old.topologyVersion (Document.getDocument hello "topologyVersion") false = true
    · refine Or.inr ⟨?_, by simp only [ho, if_true]⟩
      rintro _ ⟨he, hn⟩
      cases he
      simp [ho] at hn
    · refine Or.inl ⟨old, ⟨rfl, Bool.eq_false_iff.mpr ho⟩, ?_⟩
      simp only [ho]
      rfl

lemma update_consistent (ht : Consistent t) : Consistent (t.update env address hello now rtt) := by
  rcases update_cases env t address hello now rtt with ⟨_, -, h⟩ | ⟨-, h⟩
  · rw [h]
    by_cases hf : Fixed t
    · refine consistent_fixed ?_
      rwa [Fixed, (receive_fixed hf).1]
    · exact receive_consistent ht hf
  · rw [h]
    exact ht

lemma fault_eq : ∃ u, Quieter t u ∧ t.fault address s e now = u.recheck := by
  unfold fault
  split_ifs
  · exact ⟨_, (put_quieter (by simp [faulty, Server.unknown])).trans push_quieter, rfl⟩
  · exact ⟨_, put_quieter (by simp [faulty, Server.unknown]), rfl⟩

lemma applicationError_cases (t : Topology) (address : String) (e : ApplicationError) (now : ℕ) :
    t.applicationError address e now = t ∨
      ∃ u, Quieter t u ∧ t.applicationError address e now = u.recheck := by
  unfold applicationError
  split
  · exact .inl rfl
  · rename_i s _
    split_ifs
    · exact .inl rfl
    · exact .inl rfl
    · exact .inr fault_eq
    · exact .inl rfl

lemma primary_map (f : String → Server → Server) (hf : ∀ a s, (f a s).kind = s.kind)
    (h : t'.servers = t.servers.map f) : Primary t' b ↔ Primary t b := by
  unfold Primary
  rw [h, Std.TreeMap.getElem?_map]
  constructor
  · rintro ⟨s, hs, hk⟩
    obtain ⟨old, ho, rfl⟩ := Option.map_eq_some_iff.mp hs
    exact ⟨old, ho, (hf b old).symm.trans hk⟩
  · rintro ⟨s, hs, hk⟩
    exact ⟨f b s, by rw [hs, Option.map_some], (hf b s).trans hk⟩

lemma exec_consistent (ht : Consistent t) (call : TopologyCall) : Consistent (t.exec env call) := by
  cases call with
  | update => exact update_consistent env ht
  | applicationError address e now =>
    rcases applicationError_cases t address e now with h | ⟨u, hu, h⟩
    · exact (congrArg Consistent h).mpr ht
    · exact (congrArg Consistent h).mpr (hu.consistent ht)
  | handleTimeout =>
    exact ht.congr (fun b => primary_map _ (fun _ s => by split_ifs <;> rfl) rfl) rfl
  | requestCheck now => exact ht.congr (fun b => primary_map (fun _ s => hasten s now) (fun _ _ => rfl) rfl) rfl
  | pollEvent => exact ht.congr (fun _ => Iff.rfl) rfl

lemma seeds_fresh {seeds : List Address} (servers : Std.TreeMap String Server)
    (h : ∀ (b : String) (s : Server), servers[b]? = some s → s = .unknown now 0) (b : String) (s : Server)
    (hs : (seeds.foldl (fun servers a => servers.insert a.authority (Server.unknown now 0)) servers)[b]? = some s) :
    s = .unknown now 0 := by
  induction seeds generalizing servers with
  | nil => exact h b s hs
  | cons seed seeds ih =>
    refine ih (servers.insert seed.authority (.unknown now 0)) (fun c x hx => ?_) hs
    rw [Std.TreeMap.getElem?_insert] at hx
    split_ifs at hx
    · exact (Option.some.inj hx).symm
    · exact h c x hx

lemma new_consistent : Consistent (Topology.new options now) := by
  have hn : ∀ b, ¬Primary (.new options now) b := by
    rintro b ⟨s, hs, hk⟩
    rw [seeds_fresh ∅ (by simp) b s hs] at hk
    cases hk
  refine ⟨fun _ => hn, fun _ a b ha => absurd ha (hn a), fun _ => ?_⟩
  refine iff_of_false ?_ (by simpa using hn)
  simp only [Topology.new]
  split_ifs <;> simp

lemma run_consistent (calls : List TopologyCall) (ht : Consistent t) : Consistent (t.run env calls) := by
  induction calls generalizing t with
  | nil => exact ht
  | cons call calls ih => exact ih (exec_consistent env ht call)

def FromPrimary (hello : Document) : Prop :=
  Document.succeeded hello = true ∧ Server.parseKind hello = .rsPrimary

def carried (hello : Document) : WithBot ObjectId ×ₗ WithBot ℤ :=
  ranked (Document.getObjectId hello "electionId") (Document.getI32 hello "setVersion")

def Modern (hello : Document) : Prop :=
  FromPrimary hello → ∃ version, Document.getI32 hello "maxWireVersion" = some version ∧ 17 ≤ version

lemma describe_fromPrimary (h : (describe env t old hello now rtt).kind = .rsPrimary) :
    FromPrimary hello ∧ (describe env t old hello now rtt).electionId = Document.getObjectId hello "electionId" ∧
      (describe env t old hello now rtt).setVersion = Document.getI32 hello "setVersion" ∧
      (describe env t old hello now rtt).maxWireVersion = (Document.getI32 hello "maxWireVersion").getD 0 ∧
      (describe env t old hello now rtt).hosts = Server.parseHosts env hello := by
  unfold describe Server.parse at h ⊢
  by_cases ho : Document.succeeded hello = true
  · rw [ho] at h ⊢
    exact ⟨⟨ho, h⟩, rfl, rfl, rfl, rfl⟩
  · simp [ho, Server.unknown] at h

lemma Welcome.modern (h : Welcome t (describe env t old hello now rtt)) (hm : Modern hello) :
    17 ≤ (describe env t old hello now rtt).maxWireVersion ∧ t.maxima ≤ carried hello ∧
      ranked (describe env t old hello now rtt).electionId (describe env t old hello now rtt).setVersion =
        carried hello := by
  obtain ⟨hf, he, hv, hw, -⟩ := describe_fromPrimary env h.1
  obtain ⟨_, hb, hl⟩ := hm hf
  have hi : 17 ≤ (describe env t old hello now rtt).maxWireVersion := by rw [hw, hb]; exact hl
  have hh := h.2.2
  rw [stale, if_pos hi, decide_eq_false_iff_not, not_lt, he, hv] at hh
  exact ⟨hi, hh, by rw [he, hv, carried]⟩

lemma update_maxima (hm : Modern hello) : t.maxima ≤ (t.update env address hello now rtt).maxima := by
  rcases update_cases env t address hello now rtt with ⟨old, -, h⟩ | ⟨-, h⟩
  · rw [h]
    by_cases hf : Fixed t
    · exact (receive_fixed hf).2.ge
    · have ho : Outcome t address.toLower (describe env t old hello now rtt)
          (t.receive address.toLower (describe env t old hello now rtt) now) := receive_outcome hf
      cases ho with
      | declined _ _ maxima => exact maxima.ge
      | accepted welcome _ _ maxima =>
        obtain ⟨hw, hl, he⟩ := welcome.modern env hm
        rw [maxima hw, he]
        exact hl
  · rw [h]

def ModernCall : TopologyCall → Prop
  | .update _ hello _ _ => Modern hello
  | _ => True

lemma exec_maxima (t : Topology) (h : ModernCall call) : t.maxima ≤ (t.exec env call).maxima := by
  cases call with
  | update => exact update_maxima env h
  | applicationError address e now =>
    have he : (t.applicationError address e now).maxima = t.maxima := by
      rcases applicationError_cases t address e now with h | ⟨u, hu, h⟩
      · rw [h]
      · rw [h, recheck_maxima, hu.maxima]
    exact he.ge
  | handleTimeout | requestCheck | pollEvent => exact le_rfl

lemma run_maxima (t : Topology) (h : ∀ call ∈ calls, ModernCall call) : t.maxima ≤ (t.run env calls).maxima := by
  induction calls generalizing t with
  | nil => exact le_rfl
  | cons call calls ih =>
    have hf := exec_maxima env t (h call List.mem_cons_self)
    exact hf.trans (ih (t.exec env call) fun c hc => h c (List.mem_cons_of_mem call hc))

def Accepts (t : Topology) (address : String) (hello : Document) (now rtt : ℕ) : Prop :=
  ¬Fixed t ∧ ∃ old, Hears t address hello old ∧ Welcome t (describe env t old hello now rtt)

lemma update_heard (now rtt : ℕ) (hf : ¬Fixed t) (h : Hears t address hello old) :
    Outcome t address.toLower (describe env t old hello now rtt) (t.update env address hello now rtt) := by
  rcases update_cases env t address hello now rtt with ⟨old', h', he⟩ | ⟨hn, -⟩
  · obtain rfl : old' = old := Option.some.inj (h'.1.symm.trans h.1)
    rw [he]
    exact receive_outcome hf
  · exact absurd h (hn old)

lemma update_members (h : Accepts env t address hello now rtt) (b : String) :
    b ∈ (t.update env address hello now rtt).servers ↔ b ∈ Server.parseHosts env hello := by
  obtain ⟨hf, _, hears, welcome⟩ := h
  obtain ⟨-, -, -, -, hh⟩ := describe_fromPrimary env welcome.1
  cases update_heard env now rtt hf hears with
  | declined refused => exact absurd welcome refused
  | accepted _ _ members => exact hh ▸ members b

lemma update_free (h : (t.update env address hello now rtt).kind.isReplicaSet = true) : ¬Fixed t := by
  intro hf
  rcases update_cases env t address hello now rtt with ⟨_, -, he⟩ | ⟨-, he⟩
  · rw [he, (receive_fixed hf).1] at h
    rcases hf with hk | hk <;> simp [hk, TopologyType.isReplicaSet] at h
  · rw [he] at h
    rcases hf with hk | hk <;> simp [hk, TopologyType.isReplicaSet] at h

lemma accepts_of_primary (he : (t.update env address hello now rtt).kind.isReplicaSet = true)
    (h : Hears t address hello old) (hp : Primary (t.update env address hello now rtt) address.toLower) :
    Accepts env t address hello now rtt := by
  have hf := update_free env he
  refine ⟨hf, old, h, ?_⟩
  cases update_heard env now rtt hf h with
  | declined _ quiet _ => exact absurd rfl (quiet _ hp).2
  | accepted welcome => exact welcome

lemma outdated_demoted (hs : (t.update env address hello now rtt).kind.isReplicaSet = true)
    (h : Hears t address hello old) (hm : Modern hello)
    (hl : carried hello < (t.update env address hello now rtt).maxima) :
    ¬Primary (t.update env address hello now rtt) address.toLower := by
  intro hp
  cases update_heard env now rtt (update_free env hs) h with
  | declined _ quiet _ => exact (quiet _ hp).2 rfl
  | accepted welcome _ _ maxima =>
    obtain ⟨hw, -, he⟩ := welcome.modern env hm
    rw [maxima hw, he] at hl
    exact lt_irrefl _ hl

theorem replica_set_invariant (options : Options) (start : ℕ) (calls : List TopologyCall) (t : Topology)
    (ht : t = (Topology.new options start).run env calls) :
    (t.kind.isReplicaSet = true → (∀ a b, Primary t a → Primary t b → a = b) ∧
      (t.kind = .replicaSetWithPrimary ↔ ∃ a, Primary t a)) ∧
    (∀ address hello now rtt, Accepts env t address hello now rtt → ∀ b,
      b ∈ (t.update env address hello now rtt).servers ↔ b ∈ Server.parseHosts env hello) ∧
    (∀ address hello now rtt old, (t.update env address hello now rtt).kind.isReplicaSet = true →
      Hears t address hello old → Primary (t.update env address hello now rtt) address.toLower →
        Accepts env t address hello now rtt) ∧
    (∀ later, (∀ call ∈ later, ModernCall call) → t.maxima ≤ (t.run env later).maxima) ∧
    ∀ address hello now rtt old, (t.update env address hello now rtt).kind.isReplicaSet = true →
      Hears t address hello old → Modern hello →
      carried hello < (t.update env address hello now rtt).maxima →
        ¬Primary (t.update env address hello now rtt) address.toLower := by
  have hc : Consistent t := ht ▸ run_consistent env calls new_consistent
  refine ⟨fun he => ⟨hc.unique ?_, hc.settled he⟩, ?_, ?_, ?_, ?_⟩
  · rintro (hk | hk) <;> simp [hk, TopologyType.isReplicaSet] at he
  · intro address hello now rtt h b
    exact update_members env h b
  · intro address hello now rtt old he h hp
    exact accepts_of_primary env he h hp
  · intro later h
    exact run_maxima env t h
  · intro address hello now rtt old he h hm hl
    exact outdated_demoted env he h hm hl

section

lemma primary_iff : Primary t a ↔ t.servers[a]?.map Server.kind = some .rsPrimary := by
  rw [Option.map_eq_some_iff]
  rfl

def ascii : Platform := ⟨String.toLower, fun before rtt => (4 * before + rtt) / 5⟩

def oneSeed : Options := ⟨false, none, [⟨"db", 27017⟩], 10⟩

def primaryHello (election : ObjectId) (counter : ℤ) : Document :=
  [("ok", .int32 1), ("setName", .string "rs"), ("ismaster", .boolean true),
    ("hosts", .array [.string "db:27017"]), ("passives", .array [.string "db:27018"]),
    ("electionId", .objectId election), ("setVersion", .int32 1), ("maxWireVersion", .int32 21),
    ("topologyVersion", .document [("processId", .objectId 7), ("counter", .int64 counter)])]

lemma primaryHello_modern : Modern (primaryHello election counter) :=
  fun _ => ⟨21, rfl, by norm_num⟩

def plain : Platform := { ascii with toLowercase := id }

lemma update_plain (t : Topology) (address : String) (election : ObjectId) (counter : ℤ) (now rtt : ℕ) :
    t.update ascii address (primaryHello election counter) now rtt =
      t.update plain address (primaryHello election counter) now rtt := by
  have hf : "db:27017".toLower = "db:27017" := by decide +kernel
  have he : "db:27018".toLower = "db:27018" := by decide +kernel
  have hh : Server.parseHosts ascii (primaryHello election counter) =
    Server.parseHosts plain (primaryHello election counter) := by
    change ["db:27017".toLower, "db:27018".toLower] = ["db:27017", "db:27018"]
    rw [hf, he]
  have hp : ∀ old, Server.parse ascii (primaryHello election counter) now old rtt t.heartbeat =
      Server.parse plain (primaryHello election counter) now old rtt t.heartbeat := by
    intro old
    rw [Server.parse, Server.parse, hh]
    rfl
  unfold update
  simp only [hp]

def oneHello : Topology := (new oneSeed 0).run ascii [.update "db:27017" (primaryHello 2 5) 1 1]

lemma oneHello_eq : oneHello = (new oneSeed 0).update plain "db:27017" (primaryHello 2 5) 1 1 :=
  update_plain _ _ _ _ _ _

lemma second_known : ∃ old, oneHello.servers["db:27018".toLower]? = some old ∧ old.topologyVersion = none := by
  have hk : "db:27018".toLower = "db:27018" := by decide +kernel
  rw [oneHello_eq, hk]
  have hv : (((new oneSeed 0).update plain "db:27017" (primaryHello 2 5) 1 1).servers["db:27018"]?.map
      fun s => s.topologyVersion.isNone) = some true := by decide +kernel
  obtain ⟨old, ho, hn⟩ := Option.map_eq_some_iff.mp hv
  exact ⟨old, ho, Option.isNone_iff_eq_none.mp hn⟩

lemma oneHello_hears (election : ObjectId) : ∃ old, Hears oneHello "db:27018" (primaryHello election 1) old := by
  obtain ⟨old, ho, hv⟩ := second_known
  exact ⟨old, ho, by rw [hv]; rfl⟩

lemma oneHello_maxima : oneHello.maxima = ranked (some 2) (some 1) := by
  rw [oneHello_eq]
  decide +kernel

lemma oneHello_accepts : Accepts ascii oneHello "db:27018" (primaryHello 3 1) 2 1 := by
  obtain ⟨old, hears⟩ := oneHello_hears 3
  have hk : oneHello.kind = .replicaSetWithPrimary := by rw [oneHello_eq]; decide +kernel
  have hn : oneHello.setName = some "rs" := by rw [oneHello_eq]; decide +kernel
  have hs : oneHello.stale (describe ascii oneHello old (primaryHello 3 1) 2 1) =
    decide (ranked (some (3 : ObjectId)) (some (1 : ℤ)) < oneHello.maxima) := rfl
  refine ⟨by simp [Fixed, hk], old, hears, rfl, .inr hn, ?_⟩
  rw [hs, oneHello_maxima]
  decide +kernel

theorem replica_set_invariant_hello :
    (∀ b, b ∈ (oneHello.update ascii "db:27018" (primaryHello 3 1) 2 1).servers ↔
      b ∈ Server.parseHosts ascii (primaryHello 3 1)) ∧
    oneHello.maxima ≤ (oneHello.run ascii [.update "db:27018" (primaryHello 3 1) 2 1]).maxima ∧
    ¬Primary (oneHello.update ascii "db:27018" (primaryHello 1 1) 2 1) "db:27018".toLower := by
  obtain ⟨-, hm, -, ha, hd⟩ :=
    replica_set_invariant ascii oneSeed 0 [.update "db:27017" (primaryHello 2 5) 1 1] oneHello rfl
  refine ⟨hm _ _ _ _ oneHello_accepts, ha _ ?_, ?_⟩
  · intro _ hc
    rw [List.mem_singleton.mp hc]
    exact primaryHello_modern
  · obtain ⟨old, hears⟩ := oneHello_hears 1
    refine hd _ _ _ _ old ?_ hears primaryHello_modern ?_
    · rw [update_plain, oneHello_eq]
      decide +kernel
    · rw [update_plain, oneHello_eq]
      decide +kernel

theorem discarded_hello_stays_primary :
    (oneHello.update ascii "db:27017" (primaryHello 1 4) 2 1).kind.isReplicaSet = true ∧
    Modern (primaryHello 2 5) ∧ Modern (primaryHello 1 4) ∧
    carried (primaryHello 1 4) < (oneHello.update ascii "db:27017" (primaryHello 1 4) 2 1).maxima ∧
    Primary (oneHello.update ascii "db:27017" (primaryHello 1 4) 2 1) "db:27017" := by
  rw [update_plain, oneHello_eq, primary_iff]
  refine ⟨by decide +kernel, primaryHello_modern, primaryHello_modern, by decide +kernel, by decide +kernel⟩

end

end Turnloop.Mongodb.Topology
