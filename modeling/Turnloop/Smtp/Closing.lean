import Turnloop.Smtp.Mirror

/-! A connection closes once. -/

namespace Turnloop.Smtp

open Lib Connection List

variable {L : Library} {c c' c₀ : Connection L} {config : Config} {es : List Entry}

def Entry.closes : Entry → Option Event
  | .told .CloseTransport => some .CloseTransport
  | .told .Closed => some .Closed
  | _ => none

def closings (log : List Entry) : List Event := log.filterMap Entry.closes

def Final (pre : List Entry) (e : Entry) : Prop :=
  .told .Closed ∈ pre → (∀ cmd, e ≠ .said cmd)
    ∧ ∀ event, e = .told event → (∃ bytes, Entry.piece .Closed bytes ∈ pre) ∨ Entry.excess .Closed ∈ pre

structure Sealed (c : Connection L) : Prop where
  closings : closings c.log = if c.state = .Closed then [.CloseTransport, .Closed] else []
  quiet : c.state = .Closed → c.deadline = none ∧ c.output = []
  final : Every Final c.log

lemma closings_append (log es : List Entry) : closings (log ++ es) = closings log ++ closings es :=
  filterMap_append

lemma closings_eq_nil (he : ∀ e ∈ es, e.closes = none) : closings es = [] :=
  filterMap_eq_nil_iff.mpr he

lemma Entry.closes_of_spoken {e : Entry} (h : e.spoken = true) : e.closes = none := by
  cases e with
  | told event =>
    cases event with
    | CloseTransport | Closed => cases h
    | _ => rfl
  | _ => rfl

lemma final_append {log : List Entry} (h : Every Final log) (ho : Entry.told .Closed ∉ log ++ es) :
    Every Final (log ++ es) := by
  induction es generalizing log with
  | nil => rwa [append_nil]
  | cons e es ih =>
    rw [append_cons] at ho ⊢
    apply ih _ ho
    apply h.concat
    intro hc
    exact (ho (by simp [hc])).elim

lemma final_close {log : List Entry} (h : Every Final log) (ho : Entry.told .Closed ∉ log) :
    Every Final (log ++ [Entry.told .CloseTransport, .told .Closed]) := by
  have hf : Every Final (log ++ [Entry.told .CloseTransport]) := final_append h (by simp [ho])
  have he : Every Final (log ++ [Entry.told .CloseTransport] ++ [Entry.told .Closed]) := by
    apply hf.concat
    intro hc
    simp [ho] at hc
  simpa using he

namespace Sealed

section

variable (h : Sealed c)
include h

lemma not_told (hs : c.state ≠ .Closed) : Entry.told .Closed ∉ c.log := by
  intro hm
  have hc := h.closings
  rw [if_neg hs, Smtp.closings, filterMap_eq_nil_iff] at hc
  exact nomatch hc _ hm

lemma not_told_append (hs : c.state ≠ .Closed) (he : ∀ e ∈ es, e.closes = none) : Entry.told .Closed ∉ c.log ++ es := by
  intro hm
  rcases mem_append.mp hm with hm | hm
  · exact h.not_told hs hm
  · exact nomatch he _ hm

lemma stays (hs : c.state ≠ .Closed) (hs' : c'.state ≠ .Closed) (hl : c'.log = c.log ++ es)
    (he : ∀ e ∈ es, e.closes = none) : Sealed c' where
  closings := by rw [hl, closings_append, closings_eq_nil he, h.closings, if_neg hs, if_neg hs', append_nil]
  quiet hclosed := (hs' hclosed).elim
  final := by
    rw [hl]
    exact final_append h.final (h.not_told_append hs he)

lemma closes (hs : c.state ≠ .Closed) (hs' : c'.state ≠ .Closed) (hl : c'.log = c.log ++ es)
    (he : ∀ e ∈ es, e.closes = none) : Sealed c'.closeTransport := by
  have ht := h.stays hs hs' hl he
  simp only [closeTransport, if_neg hs']
  refine ⟨?_, fun _ => ⟨rfl, rfl⟩, ?_⟩
  · have hc := ht.closings
    rw [if_neg hs'] at hc
    simp only [Connection.tell, append_assoc, closings_append, hc]
    rfl
  · simpa [Connection.tell] using final_close ht.final (ht.not_told hs')

lemma remains (hs : c.state = .Closed) (hs' : c'.state = .Closed) (hd : c'.deadline = c.deadline)
    (ho : c'.output = []) (hl : c'.log = c.log ++ es) (hc : ∀ e ∈ es, e.closes = none)
    (ha : ∀ e ∈ es, ∀ cmd, e ≠ .said cmd)
    (ht : ∀ e ∈ es, ∀ event, e = .told event → c.Overrun ∨ Entry.excess .Closed ∈ c.log) : Sealed c' where
  closings := by rw [hl, closings_append, closings_eq_nil hc, h.closings, if_pos hs, if_pos hs', append_nil]
  quiet _ := ⟨hd.trans (h.quiet hs).1, ho⟩
  final := by
    rw [hl]
    apply h.final.append
    intro _ hp e he _
    refine ⟨ha e he, fun event hv => ?_⟩
    rcases ht e he event hv with ⟨bytes, hb⟩ | hx
    · exact .inl ⟨bytes, hp.subset hb⟩
    · exact .inr (hp.subset hx)

lemma noted (hs : c'.state = c.state) (hd : c'.deadline = c.deadline)
    (ho : c'.output = c.output) (hl : c'.log = c.log ++ [e]) (he : e.outward = false) : Sealed c' := by
  have hc : ∀ x ∈ [e], x.closes = none := by
    intro x hx
    obtain rfl := mem_singleton.mp hx
    cases x with
    | told => cases he
    | _ => rfl
  by_cases hb : c.state = .Closed
  · apply h.remains hb (hs.trans hb) hd (ho.trans (h.quiet hb).2) hl hc
    · intro x hx _ hm
      obtain rfl := mem_singleton.mp hx
      rw [hm] at he
      cases he
    · intro x hx _ hv
      obtain rfl := mem_singleton.mp hx
      rw [hv] at he
      cases he
  · exact h.stays hb (hs ▸ hb) hl hc

lemma fails (e : Error) (hl : c.state = .Closed → c.Overrun ∨ Entry.excess .Closed ∈ c.log) :
    Sealed (c.fail e).closeTransport := by
  have hg : (c.fail e).log = c.log ++ [Entry.told (.Failed c.token e c.envelope c.accepted c.rejected)] := rfl
  have ht : (c.fail e).state = c.state := rfl
  by_cases hs : c.state = .Closed
  · have he : (c.fail e).closeTransport = c.fail e := by simp [closeTransport, ht, hs]
    have ho : (c.fail e).output = [] := (h.quiet hs).2
    have hd : (c.fail e).deadline = c.deadline := rfl
    rw [he]
    apply h.remains hs (ht.trans hs) hd ho hg
    · simp [Entry.closes]
    · simp
    · exact fun _ _ _ _ => hl hs
  · have hs' : (c.fail e).state ≠ .Closed := hs
    exact h.closes hs hs' hg (by simp [Entry.closes])

lemma replied (hc : c.state = .Closed → c.Overrun) (hr : Replied (c.takeResponse code) code c.response c') :
    Sealed c' := by
  have ha : Sealed (c.takeResponse code) := h.noted rfl rfl rfl rfl rfl
  rcases hr.outcome with ⟨caps, raw, e, rfl⟩ | ⟨hs, rfl⟩ | ⟨hs, rfl⟩ | ⟨hs, _, hs', hf⟩
  · have hp : Sealed ((c.takeResponse code).prepared caps raw (c.takeResponse code).authEncoded) :=
      ⟨ha.closings, ha.quiet, ha.final⟩
    apply hp.fails e
    intro ht
    obtain ⟨bytes, hb⟩ := hc ht
    exact .inl ⟨bytes, mem_append_left _ hb⟩
  · have ho : (c.takeResponse code).state ≠ .Closed := by simp [hs]
    exact ha.closes ho ho (append_nil _).symm (by simp)
  · exact ha.stays (by simp [hs]) nofun rfl (by simp [Entry.closes])
  · obtain ⟨_, hl, hd⟩ := hf.log
    exact ha.stays hs hs' hl fun e he => Entry.closes_of_spoken (hd e he)

end

lemma moved (ha : Accounted c) (h : Sealed c) (hm : Moved c c') : Sealed c' := by
  cases hm with
  | aside ho he hd =>
    refine ⟨h.closings, fun hs => ⟨(hd hs).trans (h.quiet hs).1, ?_⟩, h.final⟩
    rw [(h.quiet hs).2] at ho
    exact suffix_nil.mp ho
  | connected hs =>
    exact h.stays (by simp [hs]) (by simp [setState]) (append_nil _).symm (by simp)
  | wrapped hs => exact h.stays (by simp [hs]) (by simp [Connection.tell]) rfl (by simp [Entry.closes])
  | unwrapped hs | reset hs => exact h.stays (by simp [hs]) (by simp) rfl (by simp [Entry.closes])
  | upgraded hs =>
    exact h.stays (by simp [hs]) (by simp [ehlo, say, setState]) c.secured_ehlo_log (by simp [Entry.closes])
  | piece | line | excess => exact h.noted rfl rfl rfl rfl rfl
  | answered hc hl hr => exact h.replied hl hr
  | intruded hc hl hr hs => exact (h.replied hl hr).fails _ (by simp [hs])
  | aborted hl =>
    apply h.fails
    intro hs
    rcases hl hs with hn | hd | hv | hx
    · simp [(ha.idle (by rw [hs]; rfl)).1] at hn
    · simp [(h.quiet hs).1] at hd
    · exact .inl hv
    · exact .inr hx
  | closed =>
    by_cases hl : c.state = .Closed
    · have hb : c.closeTransport = c := by simp [closeTransport, hl]
      rwa [hb]
    · exact h.closes hl hl (append_nil _).symm (by simp)
  | wrote hs => exact h.stays (by simp [hs]) (by simp [say, hs]) rfl (by simp [Entry.closes])
  | quit hs => exact h.stays (by simp [hs]) (by simp [setState]) rfl (by simp [Entry.closes])

lemma began {token : ℕ} (h : Sealed c) (hb : Began token c c') : Sealed c' := by
  cases hb with
  | @intro _ _ _ _ hs =>
    rw [sayAll_eq]
    apply h.stays (by simp [hs]) (by simp [setState])
    · simp only [setState, startMessage, append_assoc]
      rfl
    · intro e he
      rcases mem_cons.mp he with rfl | he'
      · rfl
      · obtain ⟨_, _, rfl⟩ := mem_map.mp he'
        rfl

end Sealed

lemma after_sealed (hn : Connection.new config = .ok c₀) (calls : List Call) : Sealed (c₀.after calls) := by
  apply after_invariant hn
  · exact ⟨rfl, nofun, .nil⟩
  · exact fun ha h hm => h.moved ha hm
  · exact fun _ h hb => h.began hb

lemma count_told {log : List Entry} (hv : (Entry.told event).closes = some event) :
    log.count (.told event) = (closings log).count event := by
  induction log with
  | nil => rfl
  | cons e log ih =>
    have hp : closings (e :: log) = e.closes.toList ++ closings log := by
      simp only [closings, filterMap_cons]
      cases e.closes <;> rfl
    rw [hp, count_append, ← ih, count_cons, Nat.add_comm]
    congr 1
    by_cases he : e = .told event
    · simp [he, hv]
    · have ho : e.closes ≠ some event := by
        intro hc
        cases e with
        | told other => cases other <;> simp_all [Entry.closes]
        | _ => cases hc
      cases hc : e.closes with
      | none => simp [he]
      | some other =>
        have hn : other ≠ event := fun hq => ho (by rw [hc, hq])
        simp [he, hn]

lemma Sealed.count_le (h : Sealed c) (he : (Entry.told event).closes = some event) : c.log.count (.told event) ≤ 1 := by
  rw [count_told he, h.closings]
  split_ifs
  · exact nodup_iff_count_le_one.mp (by decide) event
  · exact nodup_iff_count_le_one.mp (by decide) event

theorem closed_is_final (hnew : Connection.new config = .ok c₀) (calls : List Call) :
    (c₀.after calls).log.count (.told .CloseTransport) ≤ 1
    ∧ (c₀.after calls).log.count (.told .Closed) ≤ 1
    ∧ ((c₀.after calls).state = .Closed → (c₀.after calls).output = [])
    ∧ (c₀.after calls).events <:+ told (c₀.after calls).log
    ∧ ∀ pre post : List Entry, (c₀.after calls).log = pre ++ .told .Closed :: post → (∀ cmd, .said cmd ∉ post)
        ∧ ((∀ bytes, .piece .Closed bytes ∉ (c₀.after calls).log) → .excess .Closed ∉ (c₀.after calls).log →
          ∀ event, .told event ∉ post) := by
  have hd := after_sealed hnew calls
  refine ⟨hd.count_le rfl, hd.count_le rfl, fun hs => (hd.quiet hs).2, (after_mirrored hnew calls).events, ?_⟩
  intro pre post hl
  have ha : ∀ e ∈ post, (∀ cmd, e ≠ .said cmd) ∧ ∀ event, e = .told event →
      (∃ bytes, .piece .Closed bytes ∈ (c₀.after calls).log) ∨ .excess .Closed ∈ (c₀.after calls).log := by
    intro e he
    obtain ⟨mid, rest, rfl⟩ := append_of_mem he
    have hp : (c₀.after calls).log = (pre ++ .told .Closed :: mid) ++ e :: rest := by simp [hl]
    obtain ⟨hg, ht⟩ := hd.final _ e rest hp (by simp)
    refine ⟨hg, fun event hv => ?_⟩
    rcases ht event hv with ⟨bytes, hb⟩ | hx
    · exact .inl ⟨bytes, by rw [hp]; exact mem_append_left _ hb⟩
    · exact .inr (by rw [hp]; exact mem_append_left _ hx)
  refine ⟨fun cmd hc => (ha _ hc).1 cmd rfl, fun hi hx event hv => ?_⟩
  rcases (ha _ hv).2 event rfl with ⟨bytes, hb⟩ | hf
  · exact hi bytes hb
  · exact hx hf

def leave : List Call := [.connected 0, .receive (ascii "421 x\r\n") 0]

theorem closed_is_final_leave :
    Entry.told .Closed ∈ (Connection.sample.after leave).log
    ∧ ∀ pre post : List Entry, (Connection.sample.after leave).log = pre ++ .told .Closed :: post →
      ∀ event, .told event ∉ post := by
  have hp : (Connection.sample.after leave).log.all (fun
      | .piece .Closed _ => false
      | .excess .Closed => false
      | _ => true) = true := by decide +kernel
  rw [all_eq_true] at hp
  refine ⟨by decide +kernel, fun pre post hl => ?_⟩
  apply ((closed_is_final sample_new leave).2.2.2.2 pre post hl).2
  · exact fun bytes hb => nomatch hp _ hb
  · exact fun he => nomatch hp _ he

def overrun : List Call :=
  [.connected 0, .receive (ascii "421 " ++ List.replicate 4090 120 ++ crlf ++ ascii "421 x\r\n") 0]

theorem failed_after_closed :
    Event.Closed ∈ told (Connection.sample.after overrun).log
    ∧ (told (Connection.sample.after overrun).log).getLast? ≠ some .Closed := by
  decide +kernel

end Turnloop.Smtp
