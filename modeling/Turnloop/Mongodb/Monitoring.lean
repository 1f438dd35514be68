import Turnloop.Lib.Bytes
import Turnloop.Mongodb.Discovery

/-! A server's next check and its count of operations. -/

namespace Turnloop.Mongodb

open Lib (U32_MAX)

namespace Topology

variable {t t' u : Topology} {a b address : String} {s x : Server} {now : ℕ}

/-- A server of `t'` was made anew in between, or keeps its check from `t`. -/
def Follows (t t' : Topology) : Prop :=
  ∀ (b : String) (s' : Server), t'.servers[b]? = some s' →
    s'.nextCheck.isSome ∨ ∃ s, t.servers[b]? = some s ∧ s'.nextCheck = s.nextCheck

namespace Follows

lemma of_same (h : ∀ (b : String) (s' : Server), t'.servers[b]? = some s' → t.servers[b]? = some s') : Follows t t' :=
  fun b s' hs => .inr ⟨s', h b s' hs, rfl⟩

lemma of_servers (h : t'.servers = t.servers) : Follows t t' := of_same fun _ _ hs => h ▸ hs

lemma trans (h : Follows t u) (h' : Follows u t') : Follows t t' := by
  intro b s' hs
  rcases h' b s' hs with hn | ⟨x, hx, hc⟩
  · exact .inl hn
  · rcases h b x hx with hb | ⟨y, hy, hc'⟩
    · exact .inl (hc ▸ hb)
    · exact .inr ⟨y, hy, hc.trans hc'⟩

lemma foldl {α : Type} {f : Topology → α → Topology} (h : ∀ t x, Follows t (f t x)) (xs : List α) (t : Topology) :
    Follows t (xs.foldl f t) := by
  induction xs generalizing t with
  | nil => exact of_servers rfl
  | cons x xs ih => exact (h t x).trans (ih (f t x))

lemma put (hc : x.nextCheck.isSome) : Follows t (t.put a x) := by
  intro b s' hs
  rw [get_put] at hs
  split_ifs at hs
  · cases hs
    exact .inl hc
  · exact .inr ⟨s', hs, rfl⟩

lemma remove (t : Topology) (a : String) : Follows t (t.remove a) := by
  refine of_same fun b s' hs => ?_
  rw [get_remove] at hs
  split_ifs at hs
  exact hs

lemma addHosts (t : Topology) (hosts : List String) (now : ℕ) : Follows t (t.addHosts hosts now) := by
  refine foldl (fun t host => ?_) hosts t
  unfold addHost
  split_ifs
  · exact of_servers rfl
  · exact (put rfl).trans (of_servers rfl)

lemma hintPrimary (t : Topology) (primary : Option String) : Follows t (t.hintPrimary primary) := by
  unfold Topology.hintPrimary
  split
  · exact of_servers rfl
  · split
    · exact of_servers rfl
    case h_2 p hp =>
      split_ifs
      · intro b s' hs
        rw [get_put] at hs
        split_ifs at hs with hb
        · cases hs
          exact .inr ⟨p, hb ▸ hp, rfl⟩
        · exact .inr ⟨s', hs, rfl⟩
      · exact of_servers rfl

lemma receiveMember (t : Topology) (address : String) (s : Server) (now : ℕ) :
    Follows t (t.receiveMember address s now) := by
  have hk : Follows t (if t.kind ≠ .replicaSetWithPrimary then
    (t.addHosts s.hosts now).hintPrimary s.primary else t) := by
    split_ifs
    · exact (addHosts t _ _).trans (hintPrimary _ _)
    · exact of_servers rfl
  unfold Topology.receiveMember
  dsimp only
  split
  · exact hk.trans (remove _ _)
  · exact hk

lemma acceptPrimary (t : Topology) (address : String) (s : Server) (now : ℕ) :
    Follows t (t.acceptPrimary address s now) := by
  have hm : Follows t (t.recordMaxima s) := by
    unfold recordMaxima
    split_ifs <;> exact of_servers rfl
  have hd (t : Topology) : Follows t (t.demoteOthers address now) := by
    intro b _ hs
    rw [demoteOthers, Std.TreeMap.getElem?_map] at hs
    obtain ⟨old, ho, rfl⟩ := Option.map_eq_some_iff.mp hs
    split_ifs
    · exact .inl rfl
    · exact .inr ⟨old, ho, rfl⟩
  exact ((hm.trans (hd _)).trans (addHosts _ _ _)).trans (foldl remove _ _)

lemma discover (t : Topology) (address : String) (s : Server) (now : ℕ) : Follows t (t.discover address s now) := by
  have hn : Follows t (t.learnName s) := by
    unfold learnName
    split_ifs <;> exact of_servers rfl
  have hinSet (t : Topology) : Follows t (t.receiveInSet address s now) := by
    unfold receiveInSet receivePrimary
    split_ifs
    · exact remove t _
    · exact put rfl
    · exact acceptPrimary t _ _ _
    · exact receiveMember t _ _ _
  have he (t : Topology) : Follows t t.becomeSet := by
    unfold becomeSet
    split_ifs <;> exact of_servers rfl
  have hl (k : TopologyType) (p : Prop) [Decidable p] : Follows t
    (if p then { t with kind := k } else t.remove address) := by
    split_ifs
    · exact of_servers rfl
    · exact remove t _
  unfold Topology.discover
  cases s.kind with
  | standalone | mongos => exact hl _ _
  | rsPrimary | rsSecondary | rsArbiter | rsOther => exact (hn.trans (hinSet _)).trans (he _)
  | unknown | possiblePrimary | rsGhost => exact of_servers rfl

lemma record (t : Topology) (address : String) (s : Server) (now : ℕ) :
    Follows (t.put address s) (t.record address s now) := by
  refine Follows.trans ?_ (of_servers (announce_same _ _ _).1)
  unfold classify
  split
  · split_ifs
    · exact put rfl
    · exact of_servers rfl
  · split_ifs
    · exact of_servers rfl
    · exact remove _ _
  all_goals exact (discover _ _ _ _).trans (of_servers (recheck_servers _))

end Follows

/-- What a call that was heard about the server `a` leaves of the others' checks. -/
def Heard (t t' : Topology) (a : String) : Prop :=
  ∀ (b : String) (s' : Server), t'.servers[b]? = some s' →
    s'.nextCheck.isSome ∨ b ≠ a ∧ ∃ s, t.servers[b]? = some s ∧ s'.nextCheck = s.nextCheck

lemma Follows.heard (h : Follows (t.put a x) t') (hc : x.nextCheck.isSome) : Heard t t' a := by
  intro b s' hs'
  rcases h b s' hs' with hf | ⟨y, hy, he⟩
  · exact .inl hf
  · rw [get_put] at hy
    split_ifs at hy with hb
    · exact .inl (he ▸ Option.some.inj hy ▸ hc)
    · exact .inr ⟨Ne.symm hb, y, hy, he⟩

lemma receive_heard (hc : x.nextCheck.isSome) : Heard t (t.receive a x now) a := by
  unfold receive
  split_ifs
  · have hp : Follows (t.put a x.outdated) ((t.push (.clearPool a x.outdated.generation)).put a x.outdated) :=
      .of_servers rfl
    exact (hp.trans (.record _ _ _ _)).heard hc
  · exact (Follows.record _ _ _ _).heard hc

variable (env : Platform)

lemma parse_check (hello : Document) (now : ℕ) (old : Server) (rtt heartbeat : ℕ) :
    (Server.parse env hello now old rtt heartbeat).nextCheck.isSome := by
  unfold Server.parse
  split_ifs <;> rfl

lemma update_heard_or (t : Topology) (address : String) (hello : Document) (now rtt : ℕ) :
    (∃ old, Hears t address hello old) ∧ Heard t (t.update env address hello now rtt) address.toLower ∨
      (∀ old, ¬ Hears t address hello old) ∧ t.update env address hello now rtt = t := by
  rcases update_cases env t address hello now rtt with ⟨old, hears, h⟩ | hn
  · refine .inl ⟨⟨old, hears⟩, ?_⟩
    rw [h]
    exact receive_heard (parse_check ..)
  · exact .inr hn

/-- An error is heeded if it is of the connections its server has now, and not older than what the server said. -/
def Minds (t : Topology) (address : String) (e : ApplicationError) : Prop :=
  ∃ s, t.servers[address]? = some s ∧
    (e.generation < s.generation || older s.topologyVersion e.topologyVersion true) = false

lemma fault_heard : Heard t (t.fault a s e now) a := by
  have hp : Follows (t.put a (faulty s e now)) (t.fault a s e now) := by
    unfold fault
    split_ifs <;> exact .of_servers (recheck_servers _)
  exact hp.heard rfl

lemma applicationError_heard_or (t : Topology) (a : String) (e : ApplicationError) (now : ℕ) :
    Heard t (t.applicationError a e now) a ∨
      t.applicationError a e now = t ∧ ¬ (e.kind = .network ∧ Minds t a e) := by
  unfold applicationError
  cases hs : t.servers[a]? with
  | none => exact .inr ⟨rfl, fun h => by simp [Minds, hs] at h⟩
  | some =>
    dsimp only
    split_ifs with ho hi hf
    · refine .inr ⟨rfl, fun ⟨_, x, hx, hm⟩ => ?_⟩
      obtain rfl := Option.some.inj (hs.symm.trans hx)
      exact absurd ho (by simpa using hm)
    · exact .inr ⟨rfl, fun h => by simp [h.1] at hi⟩
    · exact .inl fault_heard
    · exact .inr ⟨rfl, fun h => hf (.inr (.inl h.1))⟩

end Topology

def TopologyEvent.checked : TopologyEvent → Option String
  | .check address _ => some address
  | _ => none

def TopologyCall.answered : TopologyCall → Option String
  | .update address _ _ _ => some address
  | .applicationError address e _ => if e.kind = .network then some address else none
  | _ => none

/-- A topology with the checks it has asked for that are not answered yet. -/
structure Monitor where
  topology : Topology
  outstanding : List String

namespace Monitor

open Mongodb.Topology

variable (env : Platform) {m : Monitor}

/-- A call, with whether it is the answer to a check. -/
def step (m : Monitor) (c : TopologyCall × Bool) : Monitor where
  topology := m.topology.exec env c.1
  outstanding :=
    (match if c.2 then c.1.answered else none with
      | some a => m.outstanding.erase a
      | none => m.outstanding) ++
    ((m.topology.exec env c.1).events.drop m.topology.events.length).filterMap TopologyEvent.checked

/-- The call is not passed over: the server's own name is in lower case, and what is said is not out of date. -/
def Heeds (t : Topology) : TopologyCall → Prop
  | .update address hello _ _ => address.toLower = address ∧ ∃ old, Hears t address hello old
  | .applicationError address e _ => Minds t address e
  | _ => True

def Heeded : Monitor → List (TopologyCall × Bool) → Prop
  | _, [] => True
  | m, c :: cs => (c.2 = true → ∀ a, c.1.answered = some a → a ∈ m.topology.servers →
    Heeds m.topology c.1) ∧ Heeded (m.step env c) cs

def Watched (m : Monitor) : Prop :=
  ∀ (b : String) (s : Server), m.topology.servers[b]? = some s → s.nextCheck.isSome ∨ b ∈ m.outstanding

lemma mem_after {l : List String} (hb : b ∈ l) (h : o ≠ some b) : b ∈ match o with
      | some a => l.erase a
      | none => l := by
  cases o with
  | none => exact hb
  | some => exact (List.mem_erase_of_ne fun he => h (congrArg some he.symm)).mpr hb

lemma Watched.step (h : m.Watched) (he : c.2 = true → ∀ a, c.1.answered = some a → a ∈ m.topology.servers →
    Heeds m.topology c.1) :
    (m.step env c).Watched := by
  obtain ⟨call, answer⟩ := c
  intro b s hs
  simp only [Monitor.step, List.mem_append] at hs ⊢
  -- a server that keeps its check keeps it outstanding, unless the call answered it
  have hk {old : Server} (ho : m.topology.servers[b]? = some old) (hc : s.nextCheck = old.nextCheck)
      (ht : answer = true → call.answered ≠ some b) : s.nextCheck.isSome ∨
        b ∈ (match if answer then call.answered else none with
        | some a => m.outstanding.erase a
        | none => m.outstanding) := by
    rcases h b old ho with hb | hm
    · exact .inl (hc ▸ hb)
    · refine .inr (mem_after hm ?_)
      split_ifs with hn
      · exact ht hn
      · nofun
  have hf {a : String} (hh : Heard m.topology (m.topology.exec env call) a)
      (ha : answer = true → call.answered = some b → b ∈ m.topology.servers → b = a) :=
    (hh b s hs).elim .inl fun ⟨hg, old, ho, hc⟩ =>
      hk ho hc fun hn hq => hg (ha hn hq (mem_iff.mpr ⟨old, ho⟩))
  have hl (hh : m.topology.exec env call = m.topology) (hp : ∀ a, call.answered = some a → ¬ Heeds m.topology call) :=
    hk (hh ▸ hs) rfl fun hn hq => hp b hq (he hn b hq (mem_iff.mpr ⟨s, hh ▸ hs⟩))
  rw [← or_assoc]
  cases call with
  | update address hello now rtt =>
    left
    rcases update_heard_or env m.topology address hello now rtt with ⟨-, hh⟩ | ⟨hr, hh⟩
    · refine hf hh fun hn hq hm => ?_
      cases hq
      exact (he hn _ rfl hm).1.symm
    · exact hl hh fun a ha hd => hd.2.elim hr
  | applicationError address e now =>
    left
    rcases applicationError_heard_or m.topology address e now with hh | ⟨hh, hp⟩
    · refine hf hh fun _ hq _ => ?_
      simp only [TopologyCall.answered, Option.ite_none_right_eq_some, Option.some.injEq] at hq
      exact hq.2.symm
    · refine hl hh fun a ha hd => hp ⟨?_, hd⟩
      simp only [TopologyCall.answered, Option.ite_none_right_eq_some] at ha
      exact ha.1
  | handleTimeout now =>
    simp only [exec, handleTimeout, Std.TreeMap.getElem?_map] at hs ⊢
    obtain ⟨old, ho, hq⟩ := Option.map_eq_some_iff.mp hs
    by_cases hu : due old now = true
    · refine .inr ?_
      rw [List.drop_left, List.mem_filterMap]
      refine ⟨.check b old.helloOk, List.mem_filterMap.mpr ⟨(b, old), ?_, if_pos hu⟩, rfl⟩
      exact Std.TreeMap.mem_toList_iff_getElem?_eq_some.mpr ho
    · rw [if_neg hu] at hq
      exact .inl (hk ho (by rw [hq]) fun _ => nofun)
  | requestCheck =>
    simp only [exec, requestCheck, Std.TreeMap.getElem?_map] at hs
    obtain ⟨old, -, rfl⟩ := Option.map_eq_some_iff.mp hs
    exact .inl (.inl rfl)
  | pollEvent => exact .inl (hk hs rfl fun _ => nofun)

lemma watched_run (h : m.Watched) (he : Heeded env m calls) : (calls.foldl (step env) m).Watched := by
  induction calls generalizing m with
  | nil => exact h
  | cons c calls ih => exact ih (h.step env he.1) he.2

theorem monitoring_goes_on (options : Options) (now : ℕ) (calls : List (TopologyCall × Bool))
    (heeded : Heeded env ⟨Topology.new options now, []⟩ calls) :
    (calls.foldl (step env) ⟨Topology.new options now, []⟩).Watched :=
  watched_run env (fun b s hs => .inl (seeds_fresh ∅ (by simp) b s hs ▸ rfl)) heeded

def alone : Options := ⟨true, none, [⟨"db", 27017⟩], 10⟩

def versionHello (counter : ℤ) : Document :=
  [("ok", .int32 1), ("topologyVersion",
    .document [("processId", .objectId ⟨7, by decide⟩), ("counter", .int64 counter)])]

theorem monitoring_goes_on_alone :
    Watched ([(.handleTimeout 0, false), (.update "db:27017" (versionHello 5) 1 1, true)].foldl (step plain)
      ⟨.new alone 0, []⟩) := by
  have hears : Hears (step plain ⟨.new alone 0, []⟩ (.handleTimeout 0, false)).topology "db:27017" (versionHello 5)
      { Server.unknown 0 0 with nextCheck := none } := by
    have hn : "db:27017".toLower = "db:27017" := by decide +kernel
    rw [Hears, hn]
    exact ⟨rfl, rfl⟩
  exact monitoring_goes_on plain alone 0 _ ⟨nofun, fun _ _ _ _ => ⟨by decide +kernel, _, hears⟩, trivial⟩

/-- An answer older than what the server said before is dropped, with the only check that was under way. -/
theorem monitoring_stalls :
    let m := [(.handleTimeout 0, false), (.update "db:27017" (versionHello 5) 1 1, true), (.handleTimeout 20, false),
      (.update "db:27017" (versionHello 4) 21 1, true)].foldl (step plain) ⟨.new alone 0, []⟩
    m.topology.servers["db:27017"]?.map Server.nextCheck = some none ∧ m.outstanding = [] := by
  decide +kernel

end Monitor

inductive OperationCall
  | topology (call : TopologyCall)
  | started (address : String)
  | finished (address : String)

namespace Topology

def operationStarted (t : Topology) (address : String) : Except Error Topology :=
  match t.servers[address]? with
  | none => .error (.protocol "Selected server was removed")
  | some s =>
    if s.operationCount + 1 > U32_MAX then .error (.protocol "Server operation count overflow")
    else .ok (t.put address { s with operationCount := s.operationCount + 1 })

def operationFinished (t : Topology) (address : String) : Topology :=
  match t.servers[address]? with
  | none => t
  | some s => t.put address { s with operationCount := s.operationCount - 1 }

lemma operationStarted_cases (t : Topology) (b : String) : (∃ e, t.operationStarted b = .error e) ∨
    ∃ s, t.servers[b]? = some s ∧
      t.operationStarted b = .ok (t.put b { s with operationCount := s.operationCount + 1 }) := by
  unfold operationStarted
  cases t.servers[b]? with
  | none => exact .inl ⟨_, rfl⟩
  | some s =>
    dsimp only
    split_ifs
    · exact .inl ⟨_, rfl⟩
    · exact .inr ⟨s, rfl, rfl⟩

variable (env : Platform) (a : String)

/-- The topology, and how many of the operations started on `a` are not finished. -/
def tally (p : Topology × ℕ) : OperationCall → Topology × ℕ
  | .topology call => (p.1.exec env call, p.2)
  | .started b =>
    match p.1.operationStarted b with
    | .error _ => p
    | .ok t => (t, if b = a then p.2 + 1 else p.2)
  | .finished b => (p.1.operationFinished b, if b = a then p.2 - 1 else p.2)

def Counted (p : Topology × ℕ) : Prop := ∃ s, p.1.servers[a]? = some s ∧ s.operationCount = p.2

/-- The hello of `address`, described by `s`, puts an unknown server in the place of `x`, the server `b`: it names
another set or is a stale primary's, or it is a new primary's and `x` was the primary. -/
def Replaced (t : Topology) (address : String) (s : Server) (b : String) (x : Server) : Prop :=
  b = address ∧ (t.kind = .single ∧ t.setName.isSome ∧ t.setName ≠ s.setName ∨
      ¬ Fixed t ∧ s.kind = .rsPrimary ∧ (t.setName = none ∨ t.setName = s.setName) ∧ t.stale s = true) ∨
    b ≠ address ∧ ¬ Fixed t ∧ Welcome t s ∧ x.kind = .rsPrimary

/-- The call, made in `t`, describes the server `a` anew as unknown. -/
def Forgets (t : Topology) : TopologyCall → Prop
  | .update address hello now rtt => ∃ old x, Hears t address hello old ∧ t.servers[a]? = some x ∧
      (a = address.toLower ∧ Document.succeeded hello = false ∨
        Replaced t address.toLower (Server.parse env hello now old rtt t.heartbeat) a x)
  | .applicationError address e _ => a = address ∧ Minds t address e ∧ ¬ (e.kind = .timeout ∧ !e.stateChange) ∧
      (e.stateChange ∨ e.kind = .network ∨ !e.handshakeComplete)
  | _ => False

variable {env a} {t t' u : Topology} {b address : String} {s x y : Server} {now : ℕ}

/-- Servers of both have the same counts. -/
def Keeps (t t' : Topology) : Prop :=
  ∀ (b : String) (x y : Server), t.servers[b]? = some x → t'.servers[b]? = some y → y.operationCount = x.operationCount

namespace Keeps

lemma of_sub (h : ∀ (b : String) (y : Server), t'.servers[b]? = some y → t.servers[b]? = some y) : Keeps t t' := by
  intro b x y hx hy
  obtain rfl := Option.some.inj (hx.symm.trans (h b y hy))
  rfl

lemma of_servers (h : t'.servers = t.servers) : Keeps t t' := of_sub fun _ _ hy => h ▸ hy

lemma remove (h : Keeps t u) (address : String) : Keeps t (u.remove address) := by
  intro b x y hx hy
  rw [get_remove] at hy
  split_ifs at hy
  exact h b x y hx hy

lemma keepOnly (h : Keeps t u) (hosts : List String) : Keeps t (u.keepOnly hosts) := by
  unfold Topology.keepOnly
  generalize u.servers.keys.filter _ = gone
  induction gone generalizing u with
  | nil => exact h
  | cons address gone ih => exact ih (h.remove address)

end Keeps

lemma get_addHosts (hosts : List String) (hb : t.servers[b]? = some x) :
    (t.addHosts hosts now).servers[b]? = some x := by
  unfold addHosts
  induction hosts generalizing t with
  | nil => exact hb
  | cons host hosts ih =>
    have ha : (t.addHost now host).servers[b]? = some x := by
      unfold addHost
      split_ifs with hm
      · exact hb
      · rw [push, get_put, if_neg, hb]
        rintro rfl
        exact hm (mem_iff.mpr ⟨x, hb⟩)
    exact ih ha

lemma receiveMember_keeps : Keeps t (t.receiveMember address s now) := by
  have ha : Keeps t (t.addHosts s.hosts now) := fun b x y hx hy => by
    rw [get_addHosts _ hx] at hy
    cases hy
    rfl
  have hk : Keeps t (if t.kind ≠ .replicaSetWithPrimary then
    (t.addHosts s.hosts now).hintPrimary s.primary else t) := by
    split_ifs
    · unfold hintPrimary
      split
      · exact ha
      · split
        · exact ha
        case h_2 p hp =>
          split_ifs
          · intro b x y hx hy
            rw [get_put] at hy
            split_ifs at hy with hb
            · cases hy
              exact ha b x p hx (hb ▸ hp)
            · exact ha b x y hx hy
          · exact ha
    · exact .of_servers rfl
  unfold receiveMember
  dsimp only
  split
  · exact hk.remove _
  · exact hk

lemma acceptPrimary_counts (hx : t.servers[b]? = some x) (hy : (t.acceptPrimary address s now).servers[b]? = some y) :
    y.operationCount = if b ≠ address ∧ x.kind = .rsPrimary then 0 else x.operationCount := by
  have hm : (t.recordMaxima s).servers = t.servers := by
    unfold recordMaxima
    split_ifs <;> rfl
  have hd : ((t.recordMaxima s).demoteOthers address now).servers[b]? = some (if b ≠ address ∧ x.kind = .rsPrimary then
      { Server.unknown now x.generation with
        error := some "primary marked stale due to discovery of newer primary" } else x) := by
    rw [demoteOthers, Std.TreeMap.getElem?_map, hm, hx]
    rfl
  have hk := Keeps.keepOnly (.of_servers rfl) s.hosts b _ y (get_addHosts s.hosts hd) hy
  rw [hk]
  split_ifs <;> rfl

/-- The count of `x` is lost in `y`, or kept. -/
def Recounts (lost : Prop) (x y : Server) : Prop :=
  (lost → y.operationCount = 0) ∧ (¬ lost → y.operationCount = x.operationCount)

lemma Keeps.recounts {lost : Prop} (h : Keeps t u) (hx : t.servers[b]? = some x) (hy : u.servers[b]? = some y)
    (hl : ¬ lost) :
    Recounts lost x y :=
  ⟨fun h' => (hl h').elim, fun _ => h b x y hx hy⟩

lemma putUnknown_recounts {lost : Prop} {n g : ℕ} {e : Option String} (hu : u.servers = t.servers)
    (hx : t.servers[b]? = some x)
    (hy : (u.putUnknown address n g e).servers[b]? = some y) (hl : lost ↔ b = address) : Recounts lost x y := by
  rw [putUnknown, get_put, hu] at hy
  split_ifs at hy with hb
  · cases hy
    exact ⟨fun _ => rfl, fun h => (h (hl.mpr hb.symm)).elim⟩
  · exact (Keeps.of_servers rfl).recounts hx hy fun h => hb (hl.mp h).symm

section

variable (hx : (t.put address s).servers[b]? = some x)
include hx

lemma inSet_recounts (hf : ¬ Fixed t)
    (hy : (((t.put address s).learnName s).receiveInSet address s now).servers[b]? = some y) :
    Recounts (Replaced t address s b x) x y := by
  have hl : ((t.put address s).learnName s).servers = (t.put address s).servers := by
    unfold learnName
    split_ifs <;> rfl
  have hn := learnName_name (t.put address s) s
  have hs : ((t.put address s).learnName s).stale s = t.stale s := learnName_stale
  have hr : ¬ t.kind = .single := fun h => hf (.inl h)
  unfold receiveInSet receivePrimary at hy
  rw [hs] at hy
  split_ifs at hy with he hk hb
  · refine (Keeps.remove (.of_servers hl) _).recounts hx hy ?_
    have he' : ¬ (t.setName = none ∨ t.setName = s.setName) := fun h => he (hn.mpr h)
    simp [Replaced, Welcome, hr, he']
  · have hw : t.setName = none ∨ t.setName = s.setName := hn.mp (not_not.mp he)
    refine putUnknown_recounts hl hx hy ?_
    simp [Replaced, Welcome, hr, hf, hk, hw, hb]
  · have hw : t.setName = none ∨ t.setName = s.setName := hn.mp (not_not.mp he)
    have ha := acceptPrimary_counts (hl ▸ hx) hy
    have hi : Replaced t address s b x ↔ b ≠ address ∧
      x.kind = .rsPrimary := by simp [Replaced, Welcome, hr, hf, hk, hw, hb]
    rw [hi]
    exact ⟨fun h => ha.trans (if_pos h), fun h => ha.trans (if_neg h)⟩
  · refine Keeps.recounts (fun b x y hx => receiveMember_keeps b x y (hl ▸ hx)) hx hy ?_
    simp [Replaced, Welcome, hr, hk]

lemma record_recounts (hy : (t.record address s now).servers[b]? = some y) :
    Recounts (Replaced t address s b x) x y := by
  rw [record, (announce_same _ _ _).1] at hy
  by_cases hf : Fixed t
  · unfold classify at hy
    rcases hf with hs | hs
    · have hf : Fixed t := .inl hs
      rw [show (t.put address s).kind = .single from hs] at hy
      dsimp only at hy
      split_ifs at hy with hm
      · refine putUnknown_recounts rfl hx hy ?_
        have hm' : t.setName.isSome = true ∧ t.setName ≠ s.setName := hm
        simp [Replaced, hs, hf, hm']
      · refine (Keeps.of_servers rfl).recounts hx hy ?_
        have hm' : ¬ (t.setName.isSome = true ∧ t.setName ≠ s.setName) := hm
        simp [Replaced, hs, hf, hm']
    · have hf : Fixed t := .inr hs
      have hr : ¬ Replaced t address s b x := by simp [Replaced, hs, hf]
      rw [show (t.put address s).kind = .sharded from hs] at hy
      dsimp only at hy
      split_ifs at hy
      · exact (Keeps.of_servers rfl).recounts hx hy hr
      · exact (Keeps.remove (.of_servers rfl) _).recounts hx hy hr
  · rw [classify_free (t := t.put address s) hf, recheck_servers] at hy
    have hb (u : Topology) : u.becomeSet.servers = u.servers := by
      unfold becomeSet
      split_ifs <;> rfl
    have hr (hk : s.kind ≠ .rsPrimary) : ¬ Replaced t address s b x := by
      have hs : ¬ t.kind = .single := fun h => hf (.inl h)
      simp [Replaced, Welcome, hs, hk]
    unfold discover at hy
    cases hs : s.kind with
    | standalone | mongos =>
      rw [hs] at hy
      dsimp only at hy
      split_ifs at hy
      · exact (Keeps.of_servers rfl).recounts hx hy (hr (by simp [hs]))
      · exact (Keeps.remove (.of_servers rfl) _).recounts hx hy (hr (by simp [hs]))
    | unknown | possiblePrimary | rsGhost =>
      rw [hs] at hy
      exact (Keeps.of_servers rfl).recounts hx hy (hr (by simp [hs]))
    | rsPrimary | rsSecondary | rsArbiter | rsOther =>
      rw [hs] at hy
      dsimp only at hy
      rw [hb] at hy
      exact inSet_recounts hx hf hy

lemma receive_recounts (hy : (t.receive address s now).servers[b]? = some y) :
    Recounts (Replaced t address s b x) x y := by
  unfold receive at hy
  split_ifs at hy with hk
  · have hr : ∀ z, Replaced (t.push (.clearPool address s.outdated.generation)) address s.outdated b z ↔
      Replaced t address s b z :=
      fun z => Iff.rfl
    by_cases hb : address = b
    · subst hb
      rw [get_put, if_pos rfl] at hx
      cases hx
      have h := record_recounts (x := s.outdated) (by rw [get_put, if_pos rfl]) hy
      rw [hr] at h
      have hs : Replaced t address s address s.outdated ↔ Replaced t address s address s := by simp [Replaced]
      rw [hs] at h
      exact h
    · rw [get_put, if_neg hb] at hx
      have h := record_recounts (x := x) (by rw [get_put, if_neg hb]; exact hx) hy
      rwa [hr] at h
  · exact record_recounts hx hy

end

lemma update_recounts (hears : Hears t address hello old) (hx : t.servers[a]? = some x)
    (hy : (t.receive address.toLower (Server.parse env hello now old rtt t.heartbeat) now).servers[a]? = some y) :
    Recounts (Forgets env a t (.update address hello now rtt)) x y := by
  have hw : Forgets env a t (.update address hello now rtt) ↔ a = address.toLower ∧ Document.succeeded hello = false ∨
      Replaced t address.toLower (Server.parse env hello now old rtt t.heartbeat) a x := by
    constructor
    · rintro ⟨old', x', hears', hx', hf⟩
      obtain rfl := Option.some.inj (hears.1.symm.trans hears'.1)
      obtain rfl := Option.some.inj (hx.symm.trans hx')
      exact hf
    · exact fun hf => ⟨old, x, hears, hx, hf⟩
  rw [hw]
  have hc : (Server.parse env hello now old rtt t.heartbeat).operationCount =
      if Document.succeeded hello then old.operationCount else 0 := by
    rw [Server.parse]
    cases Document.succeeded hello <;> rfl
  generalize Server.parse env hello now old rtt t.heartbeat = s at hc hy ⊢
  by_cases ha : a = address.toLower
  · subst ha
    obtain rfl := Option.some.inj (hears.1.symm.trans hx)
    have h := receive_recounts (x := s) (by rw [get_put, if_pos rfl]) hy
    have hr : Replaced t address.toLower s address.toLower old ↔ Replaced t address.toLower s address.toLower s := by
      simp [Replaced]
    rw [hr]
    cases ho : Document.succeeded hello with
    | true => simpa [Recounts, hc, ho] using h
    | false =>
      have hz : y.operationCount = 0 := by
        by_cases hl : Replaced t address.toLower s address.toLower s
        · exact h.1 hl
        · rw [h.2 hl, hc, ho]
          rfl
      simp [Recounts, hz]
  · have h := receive_recounts (x := x) (by rw [get_put, if_neg (Ne.symm ha)]; exact hx) hy
    simpa [ha] using h

lemma applicationError_recounts (hx : t.servers[a]? = some x)
    (hy : (t.applicationError address e now).servers[a]? = some y) :
    Recounts (Forgets env a t (.applicationError address e now)) x y := by
  have hk (hl : ¬ Forgets env a t (.applicationError address e now)) (hy : t.servers[a]? = some y) :
      Recounts (Forgets env a t (.applicationError address e now)) x y := (Keeps.of_servers rfl).recounts hx hy hl
  unfold applicationError at hy
  cases hs : t.servers[address]? with
  | none =>
    rw [hs] at hy
    exact hk (by simp [Forgets, Minds, hs]) hy
  | some s =>
    rw [hs] at hy
    dsimp only at hy
    split_ifs at hy with ho hi hf
    · refine hk ?_ hy
      rintro ⟨-, ⟨s', hs', hm⟩, -⟩
      obtain rfl := Option.some.inj (hs.symm.trans hs')
      exact absurd ho (by simpa using hm)
    · exact hk (fun h => h.2.2.1 hi) hy
    · have hp : (t.fault address s e now).servers = (t.put address (faulty s e now)).servers := by
        unfold fault
        split_ifs <;> exact recheck_servers _
      rw [hp, get_put] at hy
      split_ifs at hy with ha
      · cases hy
        refine ⟨fun _ => rfl, fun h => (h ⟨ha.symm, ⟨s, hs, ?_⟩, hi, hf⟩).elim⟩
        exact Bool.eq_false_iff.mpr ho
      · exact hk (fun h => ha h.1.symm) hy
    · exact hk (fun h => hf h.2.2.2) hy

lemma exec_recounts (call : TopologyCall) (hx : t.servers[a]? = some x) (hy : (t.exec env call).servers[a]? = some y) :
    Recounts (Forgets env a t call) x y := by
  have hm {f : String → Server → Server} (hf : ∀ b s, (f b s).operationCount = s.operationCount)
      (hy : (t.servers.map f)[a]? = some y) : Recounts False x y := by
    rw [Std.TreeMap.getElem?_map, hx] at hy
    cases hy
    exact ⟨nofun, fun _ => hf a x⟩
  cases call with
  | update address hello now rtt =>
    rcases update_cases env t address hello now rtt with ⟨old, hears, h⟩ | ⟨hn, h⟩
    · exact update_recounts hears hx (h ▸ hy)
    · refine (Keeps.of_servers (congrArg servers h)).recounts hx hy ?_
      rintro ⟨old, -, hears, -⟩
      exact hn old hears
  | applicationError address e now => exact applicationError_recounts hx hy
  | handleTimeout => exact hm (fun _ s => by split_ifs <;> rfl) hy
  | requestCheck now => exact hm (f := fun _ s => hasten s now) (fun _ _ => rfl) hy
  | pollEvent => exact (Keeps.of_servers rfl).recounts hx hy id

lemma Counted.step (h : Counted a p) (hc : ∃ s, (tally env a p c).1.servers[a]? = some s)
    (ht : ∀ call, c = .topology call → Forgets env a p.1 call → p.2 = 0) : Counted a (tally env a p c) := by
  obtain ⟨s, hs, hn⟩ := h
  have hp {b : String} {x : Server} {n : ℕ} (hx : p.1.servers[b]? = some x) (f : ℕ → ℕ)
    (hm : n = if b = a then f p.2 else p.2) :
      Counted a (p.1.put b { x with operationCount := f x.operationCount }, n) := by
    rw [Counted, get_put]
    split_ifs at hm ⊢ with hb
    · subst hb
      obtain rfl := Option.some.inj (hs.symm.trans hx)
      exact ⟨_, rfl, by rw [hm, ← hn]⟩
    · exact ⟨s, hs, hn.trans hm.symm⟩
  cases c with
  | topology call =>
    obtain ⟨s', hs'⟩ := hc
    have hr := exec_recounts call hs hs'
    refine ⟨s', hs', ?_⟩
    by_cases hf : Forgets env a p.1 call
    · exact (hr.1 hf).trans (ht call rfl hf).symm
    · exact (hr.2 hf).trans hn
  | started b =>
    rcases operationStarted_cases p.1 b with ⟨e, he⟩ | ⟨x, hb, hk⟩
    · rw [tally, he]
      exact ⟨s, hs, hn⟩
    · rw [tally, hk]
      exact hp hb (· + 1) rfl
  | finished b =>
    rw [tally, operationFinished]
    cases hb : p.1.servers[b]? with
    | none =>
      have hd : b ≠ a := fun hq => by simp [hq, hs] at hb
      exact ⟨s, hs, hn.trans (if_neg hd).symm⟩
    | some => exact hp hb (· - 1) rfl

theorem operations_counted (env : Platform) (a : String) (t : Topology) {s : Server} (hs : t.servers[a]? = some s)
    (hzero : s.operationCount = 0) (calls : List OperationCall) :
    let after := fun part : List OperationCall => part.foldl (tally env a) (t, 0)
    (∀ part, part <+: calls → ∃ s, (after part).1.servers[a]? = some s) →
      ((∀ part, part <+: calls → Counted a (after part)) ↔
        ∀ part call, part ++ [.topology call] <+: calls → Forgets env a (after part).1 call → (after part).2 = 0) := by
  intro after present
  have hafter (part : List OperationCall) (c : OperationCall) : after (part ++ [c]) = tally env a (after part) c :=
    List.foldl_append
  constructor
  · intro h part call hp hf
    obtain ⟨x, hx, -⟩ := h part ((List.prefix_append _ _).trans hp)
    obtain ⟨y, hy, hn⟩ := h _ hp
    rw [hafter] at hy hn
    exact hn.symm.trans ((exec_recounts call hx hy).1 hf)
  · intro h part hp
    induction part using List.reverseRecOn with
    | nil => exact ⟨s, hs, hzero⟩
    | append_singleton part c ih =>
      have hc := present _ hp
      rw [hafter] at hc ⊢
      refine (ih ((List.prefix_append _ _).trans hp)).step hc fun call hk => ?_
      subst hk
      exact h part call hp

/-- An operation that is under way when the server says hello is still counted. -/
theorem operations_counted_alone :
    let calls : List OperationCall := [.started "db:27017", .topology (.update "db:27017" (Monitor.versionHello 5) 1 1)]
    Counted "db:27017" (calls.foldl (tally plain "db:27017") (.new Monitor.alone 0, 0)) := by
  intro calls
  refine (operations_counted plain "db:27017" (.new Monitor.alone 0) rfl rfl calls fun part hp => ?_).2
    (fun part call hp hf => ?_)
    calls List.prefix_rfl
  · rw [← List.mem_inits] at hp
    simp only [calls, List.inits, List.map_cons, List.map_nil, List.mem_cons, List.not_mem_nil, or_false] at hp
    rcases hp with rfl | rfl | rfl <;> exact Option.isSome_iff_exists.mp (by decide +kernel)
  · rw [← List.mem_inits] at hp
    simp only [calls, List.inits, List.map_cons, List.map_nil, List.mem_cons, List.not_mem_nil, or_false] at hp
    obtain ⟨rfl, rfl⟩ : part = [.started "db:27017"] ∧ call = .update "db:27017" (Monitor.versionHello 5) 1 1 := by
      rcases part with _ | ⟨c, _ | ⟨d, part⟩⟩ <;> simp_all
    obtain ⟨old, x, -, -, ⟨-, hs⟩ | hr⟩ := hf
    · exact absurd hs (by decide +kernel)
    · rcases hr with ⟨-, ⟨-, h, -⟩ | ⟨h, -⟩⟩ | ⟨-, h, -⟩
      · cases h
      · exact (h (.inl rfl)).elim
      · exact (h (.inl rfl)).elim

/-- A hello that fails takes the operation under way out of the count. -/
theorem operation_forgotten :
    let p := [.started "db:27017", .topology (.update "db:27017" [("ok", .int32 0)] 1 1)].foldl (tally plain "db:27017")
      (.new Monitor.alone 0, 0)
    p.2 = 1 ∧ p.1.servers["db:27017"]?.map Server.operationCount = some 0 := by
  decide +kernel

end Topology

end Turnloop.Mongodb
