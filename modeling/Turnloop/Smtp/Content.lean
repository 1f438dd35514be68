import Turnloop.Smtp.Text

/-! A message on the wire: its lines, dots stuffed. -/

namespace Turnloop.Smtp

open List

def breaks (b : UInt8) : Bool := b = 13 ∨ b = 10

/-- Every LF, and every CR without one, is CRLF. -/
def normalised : Bytes → Bytes
  | [] => []
  | b :: rest => (if b = 13 ∧ rest.head? = some 10 then [] else if breaks b then crlf else [b]) ++ normalised rest

def unterminated (content : Bytes) : Bool := content.getLast?.any fun b => !breaks b

def terminated (content : Bytes) : Bytes := normalised content ++ if unterminated content then crlf else []

def endOfData : Bytes := crlf ++ ascii "." ++ crlf

def stuffed (line : Bytes) : Bytes := if line.head? = some 46 then 46 :: line else line

/-- The lines on the wire, and the end of the data. -/
def sent (lines : List Bytes) : Bytes := lines.flatMap (fun line => stuffed line ++ crlf) ++ (ascii "." ++ crlf)

/-- The lines of a stream, each up to its CRLF. -/
def crlfLines (line : Bytes) : Bytes → List Bytes
  | [] => []
  | b :: rest =>
    if b = 10 ∧ line.getLast? = some 13 then line.dropLast :: crlfLines [] rest else crlfLines (line ++ [b]) rest

/-- What a receiver reads up to the line with the single dot. -/
def delivered (stream : Bytes) : Bytes :=
  ((crlfLines [] stream).takeWhile (· ≠ [46])).flatMap
    fun line => (if line.head? = some 46 then line.tail else line) ++ crlf

def Unbroken (line : Bytes) : Prop := ∀ b ∈ line, breaks b = false

lemma unterminated_cons (hb : breaks b = true) {rest : Bytes} : unterminated (b :: rest) = unterminated rest := by
  cases rest with
  | nil => simp [unterminated, hb]
  | cons => simp [unterminated]

lemma unterminated_append (line : Bytes) (b : UInt8) (rest : Bytes) :
    unterminated (line ++ b :: rest) = unterminated (b :: rest) := by
  obtain ⟨c, hc⟩ : ∃ c, (b :: rest).getLast? = some c := ⟨_, getLast?_eq_some_getLast (by simp)⟩
  simp [unterminated, getLast?_append, hc]

lemma stuffed_snoc (line : Bytes) (b : UInt8) :
    stuffed (line ++ [b]) = stuffed line ++ if line = [] ∧ b = 46 then [46, b] else [b] := by
  cases line with
  | nil => by_cases hb : b = 46 <;> simp [stuffed, hb]
  | cons c line => by_cases hc : c = 46 <;> simp [stuffed, hc]

namespace DataEncoder

def message (e : DataEncoder) (content : Bytes) : Bytes × ℕ :=
  ((e.encode content).2 ++ (e.encode content).1.finish.1, (e.encode content).1.finish.2)

lemma message_cons (e : DataEncoder) (b : UInt8) (rest : Bytes) :
    e.message (b :: rest) = ((e.byte b).2 ++ ((e.byte b).1.message rest).1, ((e.byte b).1.message rest).2) := by
  simp [message, encode]

/-- What is left once the LF that completes a CR is skipped. -/
def skip (afterCr : Bool) (content : Bytes) : Bytes :=
  if afterCr ∧ content.head? = some 10 then content.tail else content

lemma unterminated_skip (afterCr : Bool) (content : Bytes) :
    unterminated (skip afterCr content) = unterminated content := by
  unfold skip
  split_ifs with h
  · obtain ⟨rest, rfl⟩ : ∃ rest, content = 10 :: rest := head?_eq_some_iff.mp h.2
    exact (unterminated_cons (by decide)).symm
  · rfl

lemma normalised_break (hb : breaks b = true) : normalised (b :: rest) = crlf ++ normalised (skip (b = 13) rest) := by
  unfold skip
  split_ifs with h
  · obtain ⟨rest, rfl⟩ : ∃ more, rest = 10 :: more := head?_eq_some_iff.mp h.2
    simp_all [normalised, breaks]
  · simp_all [normalised]

/-- The encoder in the middle of `line` writes the lines of what is left, stuffed. -/
lemma message_lines (content line : Bytes) (afterCr : Bool) (size : ℕ) (hl : Unbroken line) : ∃ lines :
    List Bytes, (∀ l ∈ lines, Unbroken l) ∧
      line ++ normalised (skip afterCr content) ++ (if unterminated (line ++ skip afterCr content) then crlf else []) =
        lines.flatMap (· ++ crlf) ∧
      stuffed line ++ (message ⟨line = [], afterCr, size⟩ content).1 = sent lines ∧
      (message ⟨line = [], afterCr, size⟩ content).2 + line.length = size + (lines.flatMap (· ++ crlf)).length := by
  induction content generalizing line afterCr size with
  | nil =>
    rcases eq_or_ne line [] with rfl | hn
    · exact ⟨[], by simp, by simp [skip, unterminated, normalised], by simp [stuffed, sent, message, encode, finish],
        by simp [message, encode, finish]⟩
    · have ha : unterminated line = true := by
        simp [unterminated, getLast?_eq_some_getLast hn, hl _ (getLast_mem hn)]
      refine ⟨[line], by simpa using hl, by simp [skip, normalised, ha], ?_, ?_⟩
      · simp [sent, message, encode, finish, hn]
      · simp [message, encode, finish, hn, crlf]
        omega
  | cons b rest ih =>
    rw [message_cons]
    by_cases hk : b = 10 ∧ afterCr = true
    · obtain ⟨rfl, rfl⟩ := hk
      simpa [byte, skip] using ih line false size hl
    have he : skip afterCr (b :: rest) = b :: rest := by
      simp [skip]
      tauto
    rw [he]
    cases hb : breaks b with
    | true =>
      obtain ⟨lines, hp, ho, hu, hi⟩ := ih [] (b = 13) (size + 2) (by simp [Unbroken])
      have hy : byte ⟨line = [], afterCr, size⟩ b = (⟨true, b = 13, size + 2⟩, crlf) := by
        simp [byte, hk, show b = 13 ∨ b = 10 by simpa [breaks] using hb]
      have hd : unterminated (line ++ b :: rest) = unterminated (skip (b = 13) rest) := by
        rw [unterminated_append, unterminated_cons hb, unterminated_skip]
      refine ⟨line :: lines, by simpa using ⟨hl, hp⟩, ?_, ?_, ?_⟩
      · rw [hd, normalised_break hb]
        simp at ho
        simp [ho]
      · rw [hy]
        simp [stuffed] at hu
        simp [hu, sent]
      · rw [hy]
        simp [crlf] at hi ⊢
        omega
    | false =>
      obtain ⟨lines, hp, ho, hu, hi⟩ :=
        ih (line ++ [b]) false (size + 1) (by simpa [Unbroken, or_imp, forall_and, hb] using hl)
      have hy : byte ⟨line = [], afterCr, size⟩ b =
        (⟨false, false, size + 1⟩, if line = [] ∧ b = 46 then [46, b] else [b]) := by
        have : ¬ (b = 13 ∨ b = 10) := by simpa [breaks] using hb
        simp [byte, hk, this]
      have ht : normalised (b :: rest) = b :: normalised rest := by
        have : b ≠ 13 := by
          rintro rfl
          exact absurd hb (by decide)
        simp [normalised, hb, this]
      refine ⟨lines, hp, ?_, ?_, ?_⟩
      · simpa [skip, ht] using ho
      · rw [hy]
        simpa [stuffed_snoc] using hu
      · rw [hy]
        simp at hi ⊢
        omega

lemma encode_append (e : DataEncoder) (x y : Bytes) :
    e.encode (x ++ y) = (((e.encode x).1.encode y).1, (e.encode x).2 ++ ((e.encode x).1.encode y).2) := by
  induction x generalizing e with
  | nil => simp [encode]
  | cons b x ih => simp [encode, ih]

/-- A content in pieces, one call for each. -/
def encodeAll (e : DataEncoder) : List Bytes → DataEncoder × Bytes
  | [] => (e, [])
  | piece :: pieces => ((e.encode piece).1.encodeAll pieces).map id ((e.encode piece).2 ++ ·)

lemma encodeAll_eq (e : DataEncoder) : e.encodeAll pieces = e.encode pieces.flatten := by
  induction pieces generalizing e with
  | nil => rfl
  | cons piece pieces ih =>
    rw [encodeAll, ih, flatten_cons, encode_append]
    rfl

end DataEncoder

lemma encodeData_lines (content : Bytes) : ∃ lines :
    List Bytes, (∀ l ∈ lines, Unbroken l) ∧ terminated content = lines.flatMap (· ++ crlf) ∧
      (encodeData content).1 = sent lines ∧ (encodeData content).2 = (terminated content).length := by
  obtain ⟨lines, hp, hn, ho, hi⟩ := DataEncoder.message_lines content [] false 0 (by simp [Unbroken])
  have he : terminated content = lines.flatMap (· ++ crlf) := by simpa [DataEncoder.skip, terminated] using hn
  refine ⟨lines, hp, he, ?_, ?_⟩
  · simpa [stuffed, DataEncoder.message, encodeData] using ho
  · rw [he]
    simpa [DataEncoder.message, encodeData] using hi

lemma crlfLines_line (hl : Unbroken (p ++ l)) (rest : Bytes) :
    crlfLines p (l ++ crlf ++ rest) = (p ++ l) :: crlfLines [] rest := by
  induction l generalizing p with
  | nil => simp [crlfLines, crlf]
  | cons b l ih =>
    have hb : breaks b = false := hl b (by simp)
    have : b ≠ 10 := by
      rintro rfl
      exact absurd hb (by decide)
    simpa [crlfLines, this] using ih (p := p ++ [b]) (by simpa using hl)

lemma plain_stuffed (hl : Unbroken line) : Unbroken (stuffed line) := by
  unfold stuffed
  split_ifs
  · simpa [Unbroken] using ⟨by decide, hl⟩
  · exact hl

lemma crlfLines_sent {lines : List Bytes} (hp : ∀ l ∈ lines, Unbroken l) :
    crlfLines [] (sent lines) = lines.map stuffed ++ [[46]] := by
  induction lines with
  | nil => decide
  | cons line lines ih =>
    rw [forall_mem_cons] at hp
    have hf : sent (line :: lines) = stuffed line ++ crlf ++ sent lines := by
      simp [sent]
    rw [hf, crlfLines_line (p := []) (l := stuffed line) (plain_stuffed hp.1), ih hp.2]
    rfl

lemma stuffed_ne {line : Bytes} : stuffed line ≠ [46] := by
  unfold stuffed
  split_ifs with h
  · rintro _
    simp_all
  · rintro rfl
    simp at h

lemma delivered_sent {lines : List Bytes} (hp : ∀ l ∈ lines, Unbroken l) :
    delivered (sent lines) = lines.flatMap (· ++ crlf) := by
  have ha : (lines.map stuffed ++ [[46]]).takeWhile (· ≠ [46]) = lines.map stuffed := by
    rw [takeWhile_append_of_pos (by simp [stuffed_ne])]
    simp
  rw [delivered, crlfLines_sent hp, ha, flatMap_map]
  congr 1
  funext line
  unfold stuffed
  split_ifs <;> simp_all

lemma append_cr (hl : Unbroken line) (h : line ++ x = u ++ 13 :: y) : ∃ w, u = line ++ w ∧ x = w ++ 13 :: y := by
  rcases append_eq_append_iff.mp h with ⟨w, hu, hx⟩ | ⟨w, rfl, hx⟩
  · exact ⟨w, hu, hx⟩
  · cases w with
    | nil => exact ⟨[], by simp, hx.symm⟩
    | cons c w =>
      obtain ⟨rfl, -⟩ : 13 = c ∧ _ := by simpa using hx
      exact absurd (hl 13 (by simp)) (by decide)

/-- In the lines and their terminator nothing follows an end of data. -/
lemma endOfData_last {lines : List Bytes} {after : Bytes} (hp : ∀ l ∈ lines, Unbroken l)
    (h : crlf ++ sent lines = u ++ endOfData ++ after) : after = [] := by
  induction lines generalizing u with
  | nil =>
    have := congrArg length h
    simp [sent, endOfData, crlf, ascii] at this
    exact eq_nil_of_length_eq_zero (by omega)
  | cons line lines ih =>
    rw [forall_mem_cons] at hp
    have hm := plain_stuffed hp.1
    have h' : 13 :: 10 :: (stuffed line ++ (crlf ++ sent lines)) = u ++ 13 :: 10 :: 46 :: 13 :: 10 :: after := by
      simpa [sent, crlf, endOfData, ascii] using h
    rcases u with - | ⟨b, - | ⟨c, u⟩⟩
    · obtain ⟨w, hw, hx⟩ := append_cr hm (u := [46]) (y := 10 :: after) (by simpa using h')
      rcases cons_eq_append_iff.mp hw with ⟨-, rfl⟩ | ⟨d, hd, hn⟩
      · simp [crlf] at hx
      · obtain ⟨rfl, -⟩ := append_eq_nil_iff.mp hn.symm
        exact absurd hd stuffed_ne
    · simp at h'
    · obtain ⟨w, -, hx⟩ := append_cr hm (u := u) (by simpa using (cons.inj (cons.inj h').2).2)
      exact ih hp.2 (u := w) (by simpa [endOfData, crlf, ascii] using hx)

lemma normalised_ne (h : content ≠ []) : normalised content ≠ [] := by
  obtain ⟨b, rest, rfl⟩ := exists_cons_of_ne_nil h
  unfold normalised
  split_ifs with hc
  · obtain ⟨rest, rfl⟩ : ∃ more, rest = 10 :: more := head?_eq_some_iff.mp hc.2
    simp [normalised, breaks, crlf]
  all_goals simp [crlf]

theorem encodeData_transparent (pieces : List Bytes) :
    let content := pieces.flatten
    let fed := ({} : DataEncoder).encodeAll pieces
    let out := encodeData content
    (fed.2 ++ fed.1.finish.1, fed.1.finish.2) = out ∧ (content = [] → out.1 = ascii "." ++ crlf) ∧
      (content ≠ [] → endOfData <:+ out.1) ∧
      (∀ before after, crlf ++ out.1 = before ++ endOfData ++ after → after = []) ∧
      delivered out.1 = terminated content ∧ out.2 = (terminated content).length := by
  intro content fed out
  obtain ⟨lines, hp, he, ho, hi⟩ := encodeData_lines content
  refine ⟨by simp [fed, out, content, encodeData, DataEncoder.encodeAll_eq], ?_, ?_, ?_, ?_, hi⟩
  · intro h
    simp only [out, h]
    rfl
  · intro h
    have hn : lines ≠ [] := by
      rintro rfl
      exact normalised_ne h (append_eq_nil_iff.mp he).1
    obtain ⟨init, last, rfl⟩ := eq_nil_or_concat' lines |>.resolve_left hn
    exact ⟨init.flatMap (fun line => stuffed line ++ crlf) ++ stuffed last, by simp [out, ho, endOfData, sent]⟩
  · intro before after h
    rw [ho] at h
    exact endOfData_last hp h
  · rw [ho, delivered_sent hp, he]

theorem encodeData_transparent_dot : endOfData <:+ (encodeData [46, 13, 10]).1 :=
  (encodeData_transparent [[46, 13], [10]]).2.2.1 (by decide)

end Turnloop.Smtp
