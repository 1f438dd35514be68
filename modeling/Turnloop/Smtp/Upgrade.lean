import Turnloop.Smtp.Mirror

/-! What is received before TLS has no part in what comes after. -/

namespace Turnloop.Smtp

open Lib Program Connection List

variable {L : Library} {c c' c₀ : Connection L} {config : Config} {code : ℕ} {response : Bytes} {log es : List Entry}
  {e : Entry}

def Entry.received : Entry → Bytes
  | .piece _ bytes => bytes
  | _ => []

def Entry.taken : Entry → Bytes
  | .line bytes => bytes
  | _ => []

def received (log : List Entry) : Bytes := log.flatMap Entry.received

def taken (log : List Entry) : Bytes := log.flatMap Entry.taken

def gather (lines : List Bytes) : Entry → List Bytes
  | .line bytes => lines ++ [bytes]
  | .reply .. => []
  | _ => lines

def partialLines (log : List Entry) : List Bytes := log.foldl gather []

def appendLine (L : Library) (text line : Bytes) : Bytes :=
  (if text = [] then [] else text ++ [10]) ++ L.lossy (line.take (line.length - 2))

def assemble (L : Library) (lines : List Bytes) : Bytes := lines.foldl (appendLine L) []

lemma received_append (log es : List Entry) : received (log ++ es) = received log ++ received es := flatMap_append

lemma taken_append (log es : List Entry) : taken (log ++ es) = taken log ++ taken es := flatMap_append

lemma partialLines_append (log es : List Entry) : partialLines (log ++ es) = es.foldl gather (partialLines log) :=
  foldl_append

def Entry.silent : Entry → Bool
  | .piece .. => false
  | .line _ => false
  | .reply .. => false
  | .upgraded => false
  | _ => true

lemma Entry.outward_silent (h : e.outward = true) : e.silent = true := by
  cases e <;> first | rfl | cases h

lemma received_silent (hs : ∀ e ∈ es, e.silent = true) : received es = [] := by
  rw [received, flatMap_eq_nil_iff]
  intro e he
  have hi := hs e he
  cases e <;> first | rfl | cases hi

lemma taken_silent (hs : ∀ e ∈ es, e.silent = true) : taken es = [] := by
  rw [taken, flatMap_eq_nil_iff]
  intro e he
  have hi := hs e he
  cases e <;> first | rfl | cases hi

lemma gather_silent (he : ∀ e ∈ es, e.silent = true) (lines : List Bytes) : es.foldl gather lines = lines := by
  induction es with
  | nil => rfl
  | cons e es ih =>
    have hi := he e mem_cons_self
    have hf : gather lines e = lines := by
      cases e <;> first | rfl | cases hi
    rw [foldl_cons, hf]
    exact ih fun e' he' => he e' (mem_cons_of_mem e he')

def Intruded (log : List Entry) : Prop := ∃ bytes, Entry.piece .Tls bytes ∈ log

def Separate (L : Library) (pre : List Entry) : Entry → Prop
  | .upgraded => Intruded pre ∨ (received pre = taken pre ∧ partialLines pre = [])
  | .reply _ text => text = assemble L (partialLines pre)
  | _ => True

lemma Entry.silent_separate (h : e.silent = true) : Separate L pre e := by
  cases e <;> trivial

structure Clear (c : Connection L) : Prop where
  stream : received c.log = taken c.log ++ c.rx
  response : c.response = assemble L (partialLines c.log)
  responseCode : partialLines c.log = [] → c.responseCode = none
  fresh : c.state = .Disconnected → c.rx = [] ∧ partialLines c.log = []
  waiting : c.state = .Tls → Intruded c.log ∨ (c.rx = [] ∧ partialLines c.log = [])
  separate : Every (Separate L) c.log

namespace Clear

variable (h : Clear c)
include h

lemma silent (hr : c'.rx = c.rx) (hd : c'.response = c.response)
    (hc : c'.responseCode = c.responseCode) (hl : c'.log = c.log ++ es) (hg : ∀ e ∈ es, e.silent = true)
    (hf : c'.state = .Disconnected → c.state = .Disconnected)
    (hw : c'.state = .Tls → Intruded c.log ∨ (c.rx = [] ∧ partialLines c.log = [])) : Clear c' := by
  have hi : partialLines c'.log = partialLines c.log := by rw [hl, partialLines_append, gather_silent hg]
  refine ⟨?_, ?_, ?_, ?_, ?_, ?_⟩
  · rw [hl, received_append, taken_append, received_silent hg, taken_silent hg, hr, append_nil, append_nil]
    exact h.stream
  · rw [hd, hi]
    exact h.response
  · rw [hc, hi]
    exact h.responseCode
  · rw [hr, hi]
    exact fun hs => h.fresh (hf hs)
  · intro hs
    rw [hr, hi]
    rcases hw hs with ⟨bytes, hb⟩ | hm
    · exact .inl ⟨bytes, by rw [hl]; exact List.mem_append_left _ hb⟩
    · exact .inr hm
  · rw [hl]
    exact h.separate.append fun pre _ e he => Entry.silent_separate (hg e he)

lemma framed (hf : Framed Entry.outward c c') (hs : c'.state ≠ .Disconnected)
    (hw : c'.state = .Tls → Intruded c.log ∨ (c.rx = [] ∧ partialLines c.log = [])) : Clear c' := by
  obtain ⟨_, hl, hb⟩ := hf.log
  exact h.silent hf.rx hf.response hf.responseCode hl (fun e he => Entry.outward_silent (hb e he))
    (fun hd => (hs hd).elim) hw

lemma piece (hs : c.state ≠ .Disconnected) (bytes : Bytes) : Clear (c.takePiece bytes) := by
  have hl : (c.takePiece bytes).log = c.log ++ [Entry.piece c.state bytes] := rfl
  have hi : partialLines (c.takePiece bytes).log = partialLines c.log := by
    rw [hl, partialLines_append]
    rfl
  refine ⟨?_, ?_, ?_, fun hd => (hs hd).elim, fun hw => .inl ⟨bytes, ?_⟩, h.separate.concat trivial⟩
  · rw [hl, received_append, taken_append, h.stream]
    simp [takePiece, received, taken, Entry.received, Entry.taken]
  · rw [hi]
    exact h.response
  · rw [hi]
    exact h.responseCode
  · have he : c.state = .Tls := hw
    rw [hl, he]
    simp

lemma line (hs : c.state ≠ .Disconnected) (he : end_ < c.rx.length) (code : ℕ) : Clear (c.takeLine end_ code) := by
  have hl : (c.takeLine end_ code).log = c.log ++ [Entry.line (c.rx.take (end_ + 1))] := rfl
  have hi : partialLines (c.takeLine end_ code).log = partialLines c.log ++ [c.rx.take (end_ + 1)] := by
    rw [hl, partialLines_append]
    rfl
  refine ⟨?_, ?_, ?_, fun hd => (hs hd).elim, fun hw => ?_, h.separate.concat trivial⟩
  · have hp := take_append_drop (end_ + 1) c.rx
    rw [hl, received_append, taken_append, h.stream]
    simp [takeLine, received, taken, Entry.received, Entry.taken]
  · have hh : (c.rx.take (end_ + 1)).length = end_ + 1 := by simpa using he
    have ha : (c.rx.take (end_ + 1)).take (end_ + 1 - 2) = c.rx.take (end_ - 1) := by
      rw [take_take]
      congr 1
      omega
    rw [hi, assemble, foldl_concat, ← assemble, ← h.response, appendLine, hh, ha]
    rfl
  · rw [hi]
    simp
  · rcases h.waiting hw with ⟨bytes, hb⟩ | ⟨hr, _⟩
    · exact .inl ⟨bytes, mem_append_left _ hb⟩
    · simp [hr] at he

lemma takeResponse (hs : c.state ≠ .Disconnected) (code : ℕ) :
    Clear (c.takeResponse code) ∧ partialLines (c.takeResponse code).log = [] := by
  have hl : (c.takeResponse code).log = c.log ++ [Entry.reply code c.response] := rfl
  have hi : partialLines (c.takeResponse code).log = [] := by
    rw [hl, partialLines_append]
    rfl
  refine ⟨⟨?_, ?_, fun _ => rfl, fun hd => (hs hd).elim, fun hw => ?_, h.separate.concat h.response⟩, hi⟩
  · rw [hl, received_append, taken_append, h.stream]
    simp [Connection.takeResponse, received, taken, Entry.received, Entry.taken]
  · rw [hi]
    rfl
  · rcases h.waiting hw with ⟨bytes, hb⟩ | ⟨hr, _⟩
    · exact .inl ⟨bytes, mem_append_left _ hb⟩
    · exact .inr ⟨hr, hi⟩

lemma upgraded (hs : c.state = .Tls) (hs' : c'.state ≠ .Disconnected) (hs'' : c'.state ≠ .Tls)
    (hr : c'.rx = c.rx) (hb : c'.response = c.response) (hc : c'.responseCode = c.responseCode)
    (hl : c'.log = c.log ++ .upgraded :: es) (hf : ∀ e ∈ es, e.silent = true) : Clear c' := by
  have hi : partialLines c'.log = partialLines c.log := by
    rw [hl, partialLines_append, foldl_cons, gather_silent hf]
    rfl
  refine ⟨?_, ?_, ?_, fun hd => (hs' hd).elim, fun hd => (hs'' hd).elim, ?_⟩
  · have hg : received (.upgraded :: es) = [] := by
      rw [← singleton_append, received_append, received_silent hf]
      rfl
    have ha : taken (.upgraded :: es) = [] := by
      rw [← singleton_append, taken_append, taken_silent hf]
      rfl
    rw [hl, received_append, taken_append, hg, ha, hr, append_nil, append_nil]
    exact h.stream
  · rw [hb, hi]
    exact h.response
  · rw [hc, hi]
    exact h.responseCode
  · rw [hl, append_cons]
    have hu : Every (Separate L) (c.log ++ [Entry.upgraded]) := by
      apply h.separate.concat
      rcases h.waiting hs with hn | ⟨hm, hi⟩
      · exact .inl hn
      · refine .inr ⟨?_, hi⟩
        rw [h.stream, hm, List.append_nil]
    exact hu.append fun pre _ e he => Entry.silent_separate (hf e he)

lemma replied (hs : c.state ≠ .Disconnected) (hr : Replied (c.takeResponse code) code c.response c')
    (hx : c'.state = .Tls → c'.rx = []) : Clear c' := by
  obtain ⟨ha, hl⟩ := h.takeResponse hs code
  apply ha.framed hr.framed hr.not_disconnected
  intro hw
  have he := hx hw
  rw [hr.framed.rx] at he
  exact .inr ⟨he, hl⟩

lemma aborted (e : Error) : Clear (c.fail e).closeTransport :=
  h.framed (((Framed.refl _ c).fail e rfl).closeTransport ⟨rfl, rfl⟩) (by simp) (by simp)

lemma moved (hm : Moved c c') : Clear c' := by
  cases hm with
  | aside =>
    exact h.silent rfl rfl rfl (append_nil _).symm (by simp) id h.waiting
  | connected => exact h.silent rfl rfl rfl (append_nil _).symm (by simp) (by rintro ⟨⟩) (by rintro ⟨⟩)
  | wrapped hs => exact h.silent rfl rfl rfl rfl (by simp [Entry.silent]) (by rintro ⟨⟩) fun _ => .inr (h.fresh hs)
  | unwrapped hs => exact h.upgraded hs (by rintro ⟨⟩) (by rintro ⟨⟩) rfl rfl rfl rfl (by simp)
  | upgraded hs =>
    exact h.upgraded hs (by rintro ⟨⟩) (by rintro ⟨⟩) rfl rfl rfl c.secured_ehlo_log (by simp [Entry.silent])
  | piece hs => exact h.piece hs _
  | line he hl hs => exact h.line hs he _
  | answered hc hd hr hx => exact h.replied hc hr hx
  | @intruded c₁ code e hc hd hr =>
    obtain ⟨ha, _⟩ := h.takeResponse hc code
    exact ha.framed ((hr.framed.fail e rfl).closeTransport ⟨rfl, rfl⟩) (by simp) (by simp)
  | excess => exact h.silent rfl rfl rfl rfl (by simp [Entry.silent]) id h.waiting
  | aborted => exact h.aborted _
  | closed => exact h.framed ((Framed.refl _ c).closeTransport ⟨rfl, rfl⟩) (by simp) (by simp)
  | wrote hs => exact h.silent rfl rfl rfl rfl (by simp [Entry.silent]) (by simp [say, hs]) (by simp [say, hs])
  | reset | quit => exact h.silent rfl rfl rfl rfl (by simp [Entry.silent]) (by rintro ⟨⟩) (by rintro ⟨⟩)

lemma began {token : ℕ} (hb : Began token c c') : Clear c' := by
  cases hb with
  | @intro =>
    rw [sayAll_eq]
    refine h.silent rfl rfl rfl (append_assoc ..) ?_ nofun nofun
    simp [Entry.silent]

end Clear

def Awaiting (c : Connection L) : Prop :=
  .told .UpgradeTls ∈ c.log → c.state = .Tls ∨ c.state = .Closed ∨ .upgraded ∈ c.log

namespace Awaiting

lemma step (h : Awaiting c) (hl : c'.log = c.log ++ es) (he : .told .UpgradeTls ∉ es)
    (hs : c.state = .Tls ∨ c.state = .Closed → c'.state = .Tls ∨ c'.state = .Closed) : Awaiting c' := by
  intro ha
  rw [hl, mem_append, or_iff_left he] at ha
  rcases h ha with ht | hc | hu
  · exact (hs (.inl ht)).imp_right .inl
  · exact (hs (.inr hc)).imp_right .inl
  · exact .inr (.inr (by rw [hl]; exact mem_append_left _ hu))

lemma closed (hs : c.state = .Closed) : Awaiting c := fun _ => .inr (.inl hs)

lemma replied (h : Awaiting c) (hr : Replied (c.takeResponse code) code c.response c') : Awaiting c' := by
  have hl : (c.takeResponse code).log = c.log ++ [Entry.reply code c.response] := rfl
  have ha : Awaiting (c.takeResponse code) := h.step hl (by simp) id
  rcases hr.outcome with ⟨_, _, e, rfl⟩ | ⟨hs, rfl⟩ | ⟨hs, rfl⟩ | ⟨hc, ht, _, hf⟩
  · exact .closed closeTransport_state
  · exact .closed closeTransport_state
  · exact fun _ => .inl rfl
  · obtain ⟨_, hl, he⟩ := hf.log
    apply ha.step hl
    · exact fun hb => nomatch he _ hb
    · rintro (hs | hs)
      · exact (ht hs).elim
      · exact (hc hs).elim

lemma moved (h : Awaiting c) (hm : Moved c c') : Awaiting c' := by
  cases hm with
  | aside => exact h.step (append_nil _).symm (by simp) id
  | connected hs => exact h.step (append_nil _).symm (by simp) (by simp [hs])
  | wrapped => exact fun _ => .inl rfl
  | unwrapped => exact fun _ => .inr (.inr (by simp [secured, note]))
  | upgraded => exact fun _ => .inr (.inr (by simp [c.secured_ehlo_log]))
  | piece | line | excess => exact h.step rfl (by simp) id
  | answered hc hd hr => exact h.replied hr
  | intruded | aborted | closed => exact .closed closeTransport_state
  | wrote hs | reset hs | quit hs => exact h.step rfl (by simp) (by simp [hs])

lemma began {token : ℕ} (h : Awaiting c) (hb : Began token c c') : Awaiting c' := by
  cases hb with
  | intro hs =>
    rw [sayAll_eq]
    refine h.step (append_assoc ..) ?_ (by simp [hs])
    simp

end Awaiting

lemma after_clear (hn : Connection.new config = .ok c₀) (calls : List Call) :
    Clear (c₀.after calls) ∧ Awaiting (c₀.after calls) := by
  apply after_invariant (P := fun c => Clear c ∧ Awaiting c) hn
  · exact ⟨⟨rfl, rfl, fun _ => rfl, fun _ => ⟨rfl, rfl⟩, nofun, .nil⟩, nofun⟩
  · exact fun _ h hm => ⟨h.1.moved hm, h.2.moved hm⟩
  · exact fun _ h hb => ⟨h.1.began hb, h.2.began hb⟩

lemma tlsEstablished_ok (h : (tlsEstablished now c).1 = .ok ()) : c.state = .Tls := by
  have hp : Post (tlsEstablished now) c (fun _ _ => c.state = .Tls) (fun _ _ => True) := by
    apply Post.get
    apply Post.refuse (fun _ => trivial)
    intro he
    have hs : c.state = .Tls := by simpa using he
    apply Post.put
    split_ifs
    · exact .modify hs
    · exact .modify hs
  rcases hr : tlsEstablished now c with ⟨r, _⟩
  rcases hp.run hr with ⟨_, _, hs⟩ | ⟨_, rfl, _⟩
  · exact hs
  · rw [hr] at h
    cases h

lemma Clear.split (h : Clear c) (hl : c.log = pre ++ .upgraded :: post)
    (he : received pre = taken pre ∧ partialLines pre = []) :
    received post = taken post ++ c.rx
    ∧ ∀ (a : List Entry) (code : ℕ) (text : Bytes) (b : List Entry), post = a ++ .reply code text :: b →
        text = assemble L (partialLines a) := by
  refine ⟨?_, ?_⟩
  · have hs := h.stream
    rw [hl, received_append, taken_append, he.1, append_assoc] at hs
    exact append_cancel_left hs
  · rintro a code text b rfl
    have hp : c.log = (pre ++ .upgraded :: a) ++ .reply code text :: b := by simp [hl]
    have ht : text = assemble L (partialLines (pre ++ .upgraded :: a)) := h.separate _ _ b hp
    rw [ht, partialLines_append, foldl_cons, he.2]
    rfl

theorem starttls_boundary (hnew : Connection.new config = .ok c₀) (calls : List Call)
    (hpieces : ∀ bytes, .piece .Tls bytes ∉ (c₀.after calls).log) :
    (∀ now, (tlsEstablished now (c₀.after calls)).1 = .ok () →
      (c₀.after calls).rx = [] ∧ (c₀.after calls).response = [] ∧ (c₀.after calls).responseCode = none)
    ∧ (.told .UpgradeTls ∈ (c₀.after calls).log → .upgraded ∉ (c₀.after calls).log →
        (c₀.after calls).state = .Tls ∧ (c₀.after calls).rx = [] ∧ (c₀.after calls).response = []
        ∨ (c₀.after calls).state = .Closed)
    ∧ ∀ pre post : List Entry, (c₀.after calls).log = pre ++ .upgraded :: post →
      received post = taken post ++ (c₀.after calls).rx
        ∧ ∀ (a : List Entry) (code : ℕ) (text : Bytes) (b : List Entry), post = a ++ .reply code text :: b →
            text = assemble L (partialLines a) := by
  obtain ⟨hc, ha⟩ := after_clear hnew calls
  have hw : (c₀.after calls).state = .Tls →
      (c₀.after calls).rx = [] ∧ (c₀.after calls).response = [] ∧ (c₀.after calls).responseCode = none := by
    intro hs
    rcases hc.waiting hs with ⟨bytes, hb⟩ | ⟨hr, hl⟩
    · exact (hpieces bytes hb).elim
    · refine ⟨hr, ?_, hc.responseCode hl⟩
      rw [hc.response, hl]
      rfl
  refine ⟨fun now ho => hw (tlsEstablished_ok ho), fun hd hp => ?_, fun pre post hg => ?_⟩
  · rcases ha hd with hs | hs | hu
    · exact .inl ⟨hs, (hw hs).1, (hw hs).2.1⟩
    · exact .inr hs
    · exact (hp hu).elim
  · rcases hc.separate pre .upgraded post hg with ⟨bytes, hb⟩ | he
    · exact (hpieces bytes (by rw [hg]; exact mem_append_left _ hb)).elim
    · exact hc.split hg he

def starttls : List Call :=
  [.connected 0, .receive (ascii "220 a\r\n") 0, .receive (ascii "250-a\r\n250 STARTTLS\r\n") 0,
    .receive (ascii "220 a\r\n") 0]

def secured : List Call := starttls ++ [.tlsEstablished 0, .receive (ascii "250-a\r\n250 b\r\n2") 0]

def Entry.untimely : Entry → Bool
  | .piece .Tls _ => true
  | _ => false

theorem starttls_boundary_empty :
    let c := Connection.sample.after starttls
    let c' := Connection.sample.after secured
    (tlsEstablished 0 c).1 = .ok () ∧ (c.rx = [] ∧ c.response = [] ∧ c.responseCode = none)
    ∧ (c.state = .Tls ∧ c.rx = [] ∧ c.response = [] ∨ c.state = .Closed)
    ∧ ∃ pre post, c'.log = pre ++ .upgraded :: post ∧ received post = taken post ++ c'.rx
      ∧ ∀ a code text b, post = a ++ .reply code text :: b → text = assemble .sample (partialLines a) := by
  intro c c'
  have hp : ∀ e ∈ c.log, e.untimely = false := by decide +kernel
  have hp' : ∀ e ∈ c'.log, e.untimely = false := by decide +kernel
  obtain ⟨hb, ht, -⟩ := starttls_boundary sample_new starttls fun bytes hm => Bool.noConfusion (hp _ hm)
  obtain ⟨-, -, hs⟩ := starttls_boundary sample_new secured fun bytes hm => Bool.noConfusion (hp' _ hm)
  have ho : (tlsEstablished 0 c).1 = .ok () := by decide +kernel
  obtain ⟨pre, post, hl⟩ := append_of_mem (show .upgraded ∈ c'.log by decide +kernel)
  exact ⟨ho, hb 0 ho, ht (by decide +kernel) (by decide +kernel), pre, post, hl, hs pre post hl⟩

def injection : List Call :=
  [.connected 0, .receive (ascii "220 a\r\n") 0, .receive (ascii "250-a\r\n250 STARTTLS\r\n") 0,
    .receive (ascii "220 " ++ List.replicate 4090 120 ++ crlf ++ ascii "250 x") 0]

theorem plaintext_injected :
    (tlsEstablished 0 (Connection.sample.after injection)).1 = .ok ()
    ∧ (Connection.sample.after injection).rx = ascii "250 x"
    ∧ (Connection.sample.after (injection ++ [Call.tlsEstablished 0, .receive crlf 0])).state = .Ready := by
  decide +kernel

end Turnloop.Smtp
