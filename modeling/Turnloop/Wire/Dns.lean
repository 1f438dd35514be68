import Turnloop.Lib.Bytes

/-! Answers of the name service: `parse` reads an untrusted packet. -/

namespace Turnloop.Dns

open List

export Lib (Bytes)

inductive Failure
  | invalid
  | failedQuery
  | panic
  deriving DecidableEq

inductive Query
  | Srv
  | Txt

def Query.code : Query → ℕ
  | Srv => 33
  | Txt => 16

inductive Record
  | Srv (target : Bytes) (port priority weight ttl : ℕ)
  | Txt (text : Bytes) (ttl : ℕ)
  deriving DecidableEq

/-- `b.get(p..p + n)` -/
def slice (b : Bytes) (p n : ℕ) : Except Failure Bytes :=
  if p + n ≤ b.length then .ok ((b.drop p).take n) else .error .invalid

/-- `from_be_bytes` -/
def natural (b : Bytes) : ℕ := b.foldl (fun n x => n * 256 + x.toNat) 0

def u16At (b : Bytes) (p : ℕ) : Except Failure ℕ := natural <$> slice b p 2

def u32At (b : Bytes) (p : ℕ) : Except Failure ℕ := natural <$> slice b p 4

/-- `data[p]` -/
def index (b : Bytes) (p : ℕ) : Except Failure ℕ :=
  match b[p]? with
  | some x => .ok x.toNat
  | none => .error .panic

def push (out label : Bytes) : Bytes := (if out = [] then [] else out ++ [46]) ++ label

variable (utf8 : Bytes → Bool) (b : Bytes)

/-- The turns of `name`; `cursor` is where the caller goes on, once there was a jump. -/
def nameLoop : ℕ → Bytes → ℕ → Option ℕ → Except Failure (Bytes × ℕ)
  | 0, _, _, _ => .error .invalid
  | n + 1, out, p, cursor =>
    match b[p]? with
    | none => .error .invalid
    | some len =>
      if len &&& 0xc0 = 0xc0 then do
        let dest := (← u16At b p) &&& 0x3fff
        if dest ≥ p then .error .invalid else nameLoop n out dest (cursor.or (some (p + 2)))
      else if len = 0 then .ok (out, cursor.getD (p + 1))
      else if len > 63 then .error .invalid
      else do
        let label ← slice b (p + 1) len.toNat
        if utf8 label = false then .error .invalid
        else if (push out label).length > 253 then .error .invalid
        else nameLoop n (push out label) (p + 1 + len.toNat) cursor

def name (at_ : ℕ) : Except Failure (Bytes × ℕ) := nameLoop utf8 b 128 [] at_ none

/-- The loop over the character strings of `data`: each turn takes a byte at least. -/
def strings (data : Bytes) : ℕ → ℕ → Bytes → Except Failure Bytes
  | 0, _, text => .ok text
  | n + 1, p, text =>
    if p < data.length then do
      let size ← index data p
      let piece ← slice data (p + 1) size
      strings data n (p + 1 + size) (text ++ piece)
    else .ok text

def srv (ttl at_ size : ℕ) : Except Failure (List Record) :=
  if size < 7 then .error .invalid
  else do
    let priority ← u16At b at_
    let weight ← u16At b (at_ + 2)
    let port ← u16At b (at_ + 4)
    let (target, cursor) ← name utf8 b (at_ + 6)
    if cursor ≠ at_ + size ∨ target = [] ∨ port = 0 then .error .invalid
    else .ok [.Srv target port priority weight ttl]

def txt (data : Bytes) (ttl : ℕ) : Except Failure (List Record) := do
  let text ← strings data data.length 0 []
  if utf8 text then .ok [.Txt text ttl] else .error .invalid

def record (kind : Query) (ty class_ ttl at_ size : ℕ) (data : Bytes) : Except Failure (List Record) :=
  if class_ = 1 ∧ ty = kind.code then if ty = 33 then srv utf8 b ttl at_ size else txt utf8 data ttl
  else .ok []

def questions : ℕ → ℕ → Except Failure ℕ
  | 0, at_ => .ok at_
  | n + 1, at_ => do
    let (_, at_) ← name utf8 b at_
    questions n (at_ + 4)

def answers (kind : Query) : ℕ → ℕ → Except Failure (List Record)
  | 0, _ => .ok []
  | n + 1, at_ => do
    let (_, at_) ← name utf8 b at_
    let ty ← u16At b at_
    let class_ ← u16At b (at_ + 2)
    let ttl ← u32At b (at_ + 4)
    let size ← u16At b (at_ + 8)
    let data ← slice b (at_ + 10) size
    let found ← record utf8 b kind ty class_ ttl (at_ + 10) size data
    let records ← answers kind n (at_ + 10 + size)
    return found ++ records

def parse (kind : Query) : Except Failure (List Record) := do
  let flags ← u16At b 2
  if flags &&& 0x8000 = 0 ∨ flags &&& 0x200 ≠ 0 then .error .invalid
  else
    match flags &&& 0xf with
    | 0 => do
      let at_ ← questions utf8 b (← u16At b 4) 12
      answers utf8 b kind (← u16At b 6) at_
    | 3 => .ok []
    | _ => .error .failedQuery

section

variable {utf8 b} {α β : Type} {x y : Except Failure α}

def Safe (x : Except Failure α) : Prop := x ≠ .error .panic

namespace Safe

lemma bind {f : α → Except Failure β} (h : Safe x) (hf : ∀ a, Safe (f a)) : Safe (x >>= f) := by
  cases x with
  | error e => exact fun he => h (congrArg Except.error (Except.error.inj he))
  | ok a => exact hf a

lemma ok (a : α) : Safe (.ok a) := nofun

lemma invalid : Safe (.error .invalid : Except Failure α) := nofun

lemma ite {c : Prop} [Decidable c] (hx : Safe x) (hy : Safe y) : Safe (if c then x else y) := by
  split_ifs
  · exact hx
  · exact hy

end Safe

lemma slice_safe : Safe (slice b p n) := .ite (.ok _) .invalid

lemma u16At_safe : Safe (u16At b p) := slice_safe.bind fun _ => .ok _

lemma nameLoop_safe : Safe (nameLoop utf8 b n out p cursor) := by
  induction n generalizing out p cursor with
  | zero => exact .invalid
  | succ n ih =>
    unfold nameLoop
    split
    · exact .invalid
    · refine .ite (u16At_safe.bind fun _ => ?_) (.ite (.ok _) (.ite .invalid (slice_safe.bind fun _ => ?_)))
      · exact .ite .invalid ih
      · exact .ite .invalid (.ite .invalid ih)

/-- The one place that could be out of range: `data[p]` is behind its guard. -/
lemma strings_safe {data : Bytes} : Safe (strings data n p text) := by
  induction n generalizing p text with
  | zero => exact .ok _
  | succ n ih =>
    unfold strings
    split_ifs with hp
    · have hi : Safe (index data p) := by
        rw [index, getElem?_eq_getElem hp]
        exact .ok _
      exact hi.bind fun _ => slice_safe.bind fun _ => ih
    · exact .ok _

lemma questions_safe : Safe (questions utf8 b n p) := by
  induction n generalizing p with
  | zero => exact .ok _
  | succ n ih => exact nameLoop_safe.bind fun _ => ih

lemma record_safe {data : Bytes} : Safe (record utf8 b kind ty class_ ttl p n data) := by
  refine .ite (.ite (.ite .invalid ?_) (strings_safe.bind fun _ => .ite (.ok _) .invalid)) (.ok _)
  exact u16At_safe.bind fun _ => u16At_safe.bind fun _ => u16At_safe.bind fun _ => nameLoop_safe.bind
    fun _ => .ite .invalid (.ok _)

lemma answers_safe : Safe (answers utf8 b kind n p) := by
  induction n generalizing p with
  | zero => exact .ok _
  | succ n ih =>
    refine nameLoop_safe.bind fun _ => u16At_safe.bind fun _ => u16At_safe.bind fun _ => ?_
    refine (slice_safe.bind fun _ => .ok _).bind fun _ => u16At_safe.bind fun _ => slice_safe.bind fun _ => ?_
    exact record_safe.bind fun _ => ih.bind fun _ => .ok _

lemma parse_safe (kind : Query) : Safe (parse utf8 b kind) := by
  refine u16At_safe.bind fun flags => .ite .invalid ?_
  split
  · exact u16At_safe.bind fun _ => questions_safe.bind fun _ => u16At_safe.bind fun _ => answers_safe
  · exact .ok _
  · nofun

end

section

variable {utf8 b}

/-- The name at `p` in place ends at `e`, with at most one pointer back to a name without any. -/
inductive NameAt (b : Bytes) : (pointers p : ℕ) → List Bytes → (e : ℕ) → Prop
  | root (h : b[p]? = some 0) : NameAt b 0 p [] (p + 1)
  | label (h : slice b p (l.length + 1) = .ok (.ofNat l.length :: l)) (hl : 0 < l.length ∧ l.length ≤ 63)
    (hn : NameAt b k (p + 1 + l.length) ls e) : NameAt b k p (l :: ls) e
  | pointer (h : slice b p 2 = .ok [x, y]) (hx : x &&& 0xc0 = 0xc0) (hd : natural [x, y] &&& 0x3fff < p)
    (hn : NameAt b 0 (natural [x, y] &&& 0x3fff) ls e) : NameAt b 1 p ls (p + 2)

def dotted (ls : List Bytes) : Bytes := intercalate [46] ls

lemma slice_cons : slice b p (n + 1) = .ok (x :: s) ↔ b[p]? = some x ∧ slice b (p + 1) n = .ok s := by
  unfold slice
  by_cases h : p + (n + 1) ≤ b.length
  · rw [if_pos h, if_pos (by omega), drop_eq_getElem_cons (show p < b.length by omega), getElem?_eq_getElem (by omega)]
    simp only [take_succ_cons, Except.ok.injEq, cons.injEq, Option.some.injEq]
  · rw [if_neg h, if_neg (by omega)]
    simp

lemma push_foldl {out : Bytes} (ho : out ≠ []) (ls : List Bytes) : ls.foldl push out = out ++ ls.flatMap (46 :: ·) := by
  induction ls generalizing out with
  | nil => simp
  | cons l ls ih =>
    rw [foldl_cons, push, if_neg ho, ih (by simp)]
    simp

lemma dotted_cons (l : Bytes) (ls : List Bytes) : dotted (l :: ls) = l ++ ls.flatMap (46 :: ·) := by
  induction ls generalizing l with
  | nil => simp [dotted]
  | cons l' ls ih =>
    rw [dotted, intercalate_cons_cons, ← dotted, ih, flatMap_cons]
    simp

lemma push_dotted {ls : List Bytes} (h : ∀ l ∈ ls, l ≠ []) : ls.foldl push [] = dotted ls := by
  cases ls with
  | nil => rfl
  | cons l ls => rw [foldl_cons, push, if_pos rfl, nil_append, push_foldl (h l (by simp)), dotted_cons]

lemma le_foldl (out : Bytes) (ls : List Bytes) : out.length ≤ (ls.foldl push out).length := by
  induction ls generalizing out with
  | nil => exact le_rfl
  | cons l ls ih =>
    refine le_trans ?_ (ih _)
    unfold push
    split_ifs <;> simp_all

lemma length_byte : ∀ n < 64, 0 < n →
    ¬ UInt8.ofNat n &&& 0xc0 = 0xc0 ∧ UInt8.ofNat n ≠ 0 ∧ ¬ UInt8.ofNat n > 63 ∧ (UInt8.ofNat n).toNat = n := by
  decide

lemma nameLoop_of (h : NameAt b k p ls e) (hn : ls.length + k < n) (hu : ∀ l ∈ ls, utf8 l)
    (hl : (ls.foldl push out).length ≤ 253) :
    nameLoop utf8 b n out p cursor = .ok (ls.foldl push out, cursor.getD e) := by
  induction h generalizing n out cursor with
  | root h =>
    obtain ⟨n, rfl⟩ : ∃ m, n = m + 1 := ⟨n - 1, by omega⟩
    rw [nameLoop, h]
    rfl
  | @label p l k ls e h hs hr ih =>
    rw [length_cons] at hn
    obtain ⟨n, rfl⟩ : ∃ m, n = m + 1 := ⟨n - 1, by omega⟩
    obtain ⟨hp, hd⟩ := slice_cons.1 h
    obtain ⟨h₁, h₂, h₃, h₄⟩ := length_byte l.length (by omega) hs.1
    rw [nameLoop, hp]
    dsimp only
    rw [if_neg h₁, if_neg h₂, if_neg h₃, h₄, hd]
    change (if utf8 l = false then _ else if _ then _ else _) = _
    rw [if_neg (by simp [hu l]), if_neg (not_lt.2 ((le_foldl _ ls).trans hl))]
    exact ih (by omega) (fun l hl => hu l (mem_cons_of_mem _ hl)) hl
  | @pointer p x y ls e h hx hd hr ih =>
    obtain ⟨n, rfl⟩ : ∃ m, n = m + 1 := ⟨n - 1, by omega⟩
    rw [nameLoop, (slice_cons.1 h).1]
    dsimp only
    rw [if_pos hx, u16At, h]
    change (if natural [x, y] &&& 0x3fff ≥ p then _ else _) = _
    rw [if_neg (not_le.2 hd), ih (by omega) hu hl]
    cases cursor <;> rfl

/-- A name that is read to its end fits the turns. -/
lemma nameLoop_turns (h : NameAt b k p ls e) (ho : nameLoop utf8 b n out p cursor = .ok r) : ls.length + k < n := by
  induction h generalizing n out cursor with
  | root h =>
    cases n with
    | zero => cases ho
    | succ n => simp
  | @label p l k ls e h hs hr ih =>
    cases n with
    | zero => cases ho
    | succ n =>
      obtain ⟨hp, hd⟩ := slice_cons.1 h
      obtain ⟨h₁, h₂, h₃, h₄⟩ := length_byte l.length (by omega) hs.1
      rw [nameLoop, hp] at ho
      dsimp only at ho
      rw [if_neg h₁, if_neg h₂, if_neg h₃, h₄, hd] at ho
      change (if utf8 l = false then _ else if _ then _ else _) = _ at ho
      split_ifs at ho
      have hi := ih ho
      rw [length_cons]
      omega
  | @pointer p x y ls e h hx hd hr ih =>
    cases n with
    | zero => cases ho
    | succ n =>
      rw [nameLoop, (slice_cons.1 h).1] at ho
      dsimp only at ho
      rw [if_pos hx, u16At, h] at ho
      change (if natural [x, y] &&& 0x3fff ≥ p then _ else _) = _ at ho
      rw [if_neg (not_le.2 hd)] at ho
      have hi := ih ho
      omega

lemma NameAt.labels (h : NameAt b k p ls e) : p < e ∧ ∀ l ∈ ls, l ≠ [] := by
  induction h with
  | root h => simp
  | label h hl hn ih =>
    refine ⟨by omega, fun l hm => ?_⟩
    rcases mem_cons.1 hm with rfl | hm
    · exact length_pos_iff.1 hl.1
    · exact ih.2 l hm
  | pointer h hx hd hn ih => exact ⟨by omega, ih.2⟩

def framed (ss : List Bytes) : Bytes := ss.flatMap fun s => .ofNat s.length :: s

section

variable (utf8 : Bytes → Bool) (turns : ℕ) (b : Bytes)

/-- A name whose labels and pointers are at most `turns`. -/
def Named (p : ℕ) (ls : List Bytes) (e : ℕ) : Prop :=
  ∃ k, NameAt b k p ls e ∧ ls.length + k ≤ turns ∧ (dotted ls).length ≤ 253 ∧ ∀ l ∈ ls, utf8 l

inductive Adds : Query → (ty class_ ttl p size : ℕ) → Bytes → List Record → Prop
  | other (h : ¬ (class_ = 1 ∧ ty = kind.code)) : Adds kind ty class_ ttl p n data []
  | srv (hi : u16At b p = .ok priority) (hw : u16At b (p + 2) = .ok weight) (ho : u16At b (p + 4) = .ok port)
    (hn : Named utf8 turns b (p + 6) ls (p + n)) (hl : ls ≠ []) (hp : port ≠ 0) :
    Adds .Srv 33 1 ttl p n data [.Srv (dotted ls) port priority weight ttl]
  | txt (hs : ∀ s ∈ w, s.length ≤ 255) (hu : utf8 w.flatten) : Adds .Txt 16 1 ttl p n (framed w) [.Txt w.flatten ttl]

inductive Questions : ℕ → ℕ → ℕ → Prop
  | nil : Questions 0 p p
  | cons (hn : Named utf8 turns b p ls q) (hr : Questions n (q + 4) e) : Questions (n + 1) p e

inductive Answers (kind : Query) : ℕ → ℕ → List Record → Prop
  | nil : Answers kind 0 p []
  | cons (hn : Named utf8 turns b p ls q) (ht : u16At b q = .ok ty) (hc : u16At b (q + 2) = .ok class_)
    (hl : u32At b (q + 4) = .ok ttl) (hs : u16At b (q + 8) = .ok size) (hd : slice b (q + 10) size = .ok data)
    (ha : Adds utf8 turns b kind ty class_ ttl (q + 10) size data found) (hr : Answers kind n (q + 10 + size) records) :
    Answers kind (n + 1) p (found ++ records)

/-- A response without error or truncation, whose answers hold `records`. -/
def Response (kind : Query) (records : List Record) : Prop :=
  ∃ flags n m e, u16At b 2 = .ok flags ∧ flags &&& 0x8000 ≠ 0 ∧ flags &&& 0x200 = 0 ∧ flags &&& 0xf = 0 ∧
    u16At b 4 = .ok n ∧ Questions utf8 turns b n 12 e ∧ u16At b 6 = .ok m ∧ Answers utf8 turns b kind m e records

end

lemma name_of (h : Named utf8 127 b p ls e) : name utf8 b p = .ok (dotted ls, e) := by
  obtain ⟨k, hn, hk, hl, hu⟩ := h
  rw [← push_dotted hn.labels.2] at hl ⊢
  exact nameLoop_of hn (by omega) hu hl

lemma questions_of (h : Questions utf8 127 b n p e) : questions utf8 b n p = .ok e := by
  induction h with
  | nil => rfl
  | cons hn hr ih =>
    rw [questions, name_of hn]
    exact ih

lemma slice_append (x : UInt8) (pre s post : Bytes) :
    slice (pre ++ x :: (s ++ post)) pre.length (s.length + 1) = .ok (x :: s) := by
  rw [slice, if_pos (by simp), drop_left, take_succ_cons, take_left]

lemma strings_of (ss : List Bytes) (hs : ∀ s ∈ ss, s.length ≤ 255) (pre text : Bytes) (hn : (framed ss).length ≤ n) :
    strings (pre ++ framed ss) n pre.length text = .ok (text ++ ss.flatten) := by
  induction ss generalizing pre text n with
  | nil => cases n <;> simp [strings, framed]
  | cons s ss ih =>
    have hf : framed (s :: ss) = .ofNat s.length :: (s ++ framed ss) := rfl
    rw [hf] at hn ⊢
    simp only [length_cons, length_append] at hn
    obtain ⟨n, rfl⟩ : ∃ m, n = m + 1 := ⟨n - 1, by omega⟩
    obtain ⟨hp, hd⟩ := slice_cons.1 (slice_append (.ofNat s.length) pre s (framed ss))
    have ht : (UInt8.ofNat s.length).toNat = s.length := by
      have := hs s mem_cons_self
      simp
      omega
    have hi : index (pre ++ .ofNat s.length :: (s ++ framed ss)) pre.length = .ok s.length := by
      rw [index, hp]
      exact congrArg _ ht
    have hr := ih (fun s h => hs s (mem_cons_of_mem _ h)) (pre ++ .ofNat s.length :: s) (text ++ s) (n := n) (by omega)
    rw [append_assoc, cons_append, length_append, length_cons, ← add_assoc, add_right_comm] at hr
    rw [strings, if_pos (by simp)]
    simp only [bind, Except.bind, hi, hd]
    rw [hr, flatten_cons, append_assoc]

lemma Named.ne_nil (h : Named utf8 m b p ls e) (hl : ls ≠ []) : dotted ls ≠ [] := by
  obtain ⟨k, hn, -⟩ := h
  obtain ⟨l, ls, rfl⟩ := exists_cons_of_ne_nil hl
  simp [dotted_cons, hn.labels.2 l]

lemma record_of (h : Adds utf8 127 b kind ty class_ ttl p n data rs) :
    record utf8 b kind ty class_ ttl p n data = .ok rs := by
  cases h with
  | other h => rw [record, if_neg h]
  | srv hi hw ho hn hl hp =>
    have hs : ¬ n < 7 := by
      obtain ⟨k, hk, -⟩ := hn
      have he := hk.labels.1
      omega
    rw [record, if_pos ⟨rfl, rfl⟩, if_pos rfl, srv, if_neg hs]
    simp only [bind, Except.bind, hi, hw, ho, name_of hn]
    rw [if_neg (by simp [hn.ne_nil hl, hp])]
  | txt hs hu =>
    have ht := strings_of _ hs [] [] le_rfl
    rw [nil_append, nil_append, length_nil] at ht
    rw [record, if_pos ⟨rfl, rfl⟩, if_neg (by decide), txt]
    simp only [bind, Except.bind, ht, hu, if_true]

lemma answers_of (h : Answers utf8 127 b kind n p rs) : answers utf8 b kind n p = .ok rs := by
  induction h with
  | nil => rfl
  | cons hn ht hc hl hs hd ha hr ih =>
    rw [answers, name_of hn]
    simp only [bind, Except.bind, ht, hc, hl, hs, hd, record_of ha, ih]
    rfl

section

variable {x : Except Failure α} {f : α → Except Failure β}

lemma of_bind (h : x >>= f = .ok r) : ∃ a, x = .ok a ∧ f a = .ok r := by
  cases x with
  | error => cases h
  | ok a => exact ⟨a, rfl, h⟩

end

lemma Named.within (h : Named utf8 turns b p ls e) (ho : name utf8 b p = .ok r) : Named utf8 127 b p ls e := by
  obtain ⟨k, hn, -, hl, hu⟩ := h
  exact ⟨k, hn, Nat.lt_succ_iff.1 (nameLoop_turns hn ho), hl, hu⟩

lemma Questions.within (h : Questions utf8 turns b n p e) (ho : questions utf8 b n p = .ok r) :
    Questions utf8 127 b n p e := by
  induction h with
  | nil => exact .nil
  | cons hn hr ih =>
    obtain ⟨_, hq, ho⟩ := of_bind ho
    have hw := hn.within hq
    cases (name_of hw).symm.trans hq
    exact .cons hw (ih ho)

lemma Adds.within (h : Adds utf8 turns b kind ty class_ ttl p n data rs)
    (ho : record utf8 b kind ty class_ ttl p n data = .ok r) :
    Adds utf8 127 b kind ty class_ ttl p n data rs := by
  cases h with
  | other h => exact .other h
  | txt hs hu => exact .txt hs hu
  | srv hi hw ht hn hl hp =>
    rw [record, if_pos ⟨rfl, rfl⟩, if_pos rfl, Dns.srv] at ho
    split_ifs at ho
    obtain ⟨_, -, ho⟩ := of_bind ho
    obtain ⟨_, -, ho⟩ := of_bind ho
    obtain ⟨_, -, ho⟩ := of_bind ho
    obtain ⟨_, hq, -⟩ := of_bind ho
    exact .srv hi hw ht (hn.within hq) hl hp

lemma Answers.within (h : Answers utf8 turns b kind n p rs) (ho : answers utf8 b kind n p = .ok r) :
    Answers utf8 127 b kind n p rs := by
  induction h generalizing r with
  | nil => exact .nil
  | cons hn ht hc hl hs hd ha hr ih =>
    obtain ⟨_, hq, ho⟩ := of_bind ho
    have hw := hn.within hq
    cases (name_of hw).symm.trans hq
    simp only [bind, Except.bind, ht, hc, hl, hs, hd] at ho
    obtain ⟨_, hf, ho⟩ := of_bind ho
    obtain ⟨_, hm, -⟩ := of_bind ho
    exact .cons hw ht hc hl hs hd (ha.within hf) (ih hm)

lemma Response.within (h : Response utf8 turns b kind rs) (ho : parse utf8 b kind = .ok r) :
    Response utf8 127 b kind rs := by
  obtain ⟨flags, n, m, e, hf, hq, ht, hr, hn, hs, hm, ha⟩ := h
  simp only [parse, bind, Except.bind, hf, hr, hn] at ho
  rw [if_neg (by simp [hq, ht])] at ho
  obtain ⟨_, he, ho⟩ := of_bind ho
  have hw := hs.within he
  cases (questions_of hw).symm.trans he
  simp only [hm] at ho
  exact ⟨flags, n, m, e, hf, hq, ht, hr, hn, hw, hm, ha.within ho⟩

end

theorem parse_answers : (∀ kind, parse utf8 b kind ≠ .error .panic) ∧ ∀ turns kind records,
    Response utf8 turns b kind records → (parse utf8 b kind = .ok records ↔ Response utf8 127 b kind records) := by
  refine ⟨parse_safe, fun turns kind records hw => ⟨fun ho => hw.within ho, ?_⟩⟩
  rintro ⟨flags, n, m, e, hf, hq, ht, hr, hn, hs, hm, ha⟩
  simp only [parse, bind, Except.bind, hf, hr, hn, questions_of hs, hm, answers_of ha]
  rw [if_neg (by simp [hq, ht])]

/-- A question for `labels` and one answer, a text whose name is a pointer to the question's. -/
def reply (labels : List Bytes) : Bytes :=
  [0, 0, 128, 0, 0, 1, 0, 1, 0, 0, 0, 0] ++ framed labels ++
    [0, 0, 16, 0, 1, 192, 12, 0, 16, 0, 1, 0, 0, 0, 60, 0, 2, 1, 120]

set_option maxRecDepth 2000 in
theorem parse_answers_text : parse (fun _ => true) (reply [[97]]) .Txt = .ok [.Txt [120] 60] := by
  have hn : NameAt (reply [[97]]) 0 12 [[97]] 15 := .label rfl (by decide) (.root rfl)
  have hr : Response (fun _ => true) 127 (reply [[97]]) .Txt [.Txt [120] 60] := by
    refine ⟨0x8000, 1, 1, 19, rfl, by decide, by decide, by decide, rfl, .cons ⟨0, hn, ?_⟩ .nil, rfl,
      .cons ⟨1, .pointer (x := 192) (y := 12) rfl (by decide) (by decide) hn, ?_⟩ rfl rfl rfl rfl rfl
        (.txt (w := [[120]]) (by decide) rfl) .nil⟩
    all_goals simp [dotted]
  exact ((parse_answers _ _).2 _ _ _ hr).2 hr

lemma NameAt.of_framed (ls : List Bytes) (h : ∀ l ∈ ls, 0 < l.length ∧ l.length ≤ 63) (pre post : Bytes) :
    NameAt (pre ++ framed ls ++ 0 :: post) 0 pre.length ls (pre.length + (framed ls).length + 1) := by
  induction ls generalizing pre with
  | nil => exact .root (by simp [framed])
  | cons l ls ih =>
    have hi := ih (fun l hl => h l (mem_cons_of_mem _ hl)) (pre ++ .ofNat l.length :: l)
    have hf : framed (l :: ls) = .ofNat l.length :: (l ++ framed ls) := rfl
    have hs := slice_append (.ofNat l.length) pre l (framed ls ++ 0 :: post)
    rw [hf]
    simp only [append_assoc, cons_append, length_append, length_cons] at hi hs ⊢
    refine .label hs (h l mem_cons_self) ?_
    convert hi using 1 <;> omega

set_option maxRecDepth 8000 in
theorem parse_long : parse (fun _ => true) (reply (replicate 127 [97])) .Txt = .error .invalid ∧
    Response (fun _ => true) 128 (reply (replicate 127 [97])) .Txt [.Txt [120] 60] := by
  have hn : NameAt (reply (replicate 127 [97])) 0 12 (replicate 127 [97]) 267 :=
    .of_framed _ (by simp) [0, 0, 128, 0, 0, 1, 0, 1, 0, 0, 0, 0] _
  refine ⟨by decide +kernel, 0x8000, 1, 1, 271, rfl, by decide, by decide, by decide, rfl, .cons ⟨0, hn, ?_⟩ .nil, rfl,
    .cons ⟨1, .pointer (x := 192) (y := 12) rfl (by decide) (by decide) hn, ?_⟩ rfl rfl rfl rfl rfl
      (.txt (w := [[120]]) (by decide) rfl) .nil⟩
  all_goals simp [dotted]

end Turnloop.Dns
