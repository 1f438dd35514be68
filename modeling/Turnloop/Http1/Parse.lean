import Turnloop.Http1.Text

/-! What the head parser reads, and a parser that reads so. -/

namespace Turnloop.Http1

open Http2 (Header isAsciiDigit decimal isBlank validToken)
open Hpack (nameBytes fromUtf8)
open Lib List Option

def trimBlanks (v : Bytes) : Bytes := (v.dropWhile isBlank).rdropWhile isBlank

def firstLine (input : Bytes) : Option (Bytes × Bytes) :=
  (position CRLF input).map fun n => (input.take n, input.drop (n + 2))

def parseField (line : Bytes) : Option Header := do
  let name ← fromUtf8 (line.takeWhile (· ≠ 58))
  let value := trimBlanks ((line.dropWhile (· ≠ 58)).drop 1)
  if validToken name && 58 ∈ line && value.all isText then some ⟨name, value⟩ else none

def parseFields : ℕ → Bytes → Option (Option (List Header))
  | 0, _ => none
  | slots + 1, input =>
    match firstLine input with
    | none => some none
    | some ([], _) => some (some [])
    | some (line, rest) => do
      let h ← parseField line
      let found ← parseFields slots rest
      return found.map (h :: ·)

def parseStatus (digits : Bytes) : Option ℕ :=
  if digits.length = 3 ∧ digits.all isAsciiDigit then decimal digits else none

def trimmed (h : Header) : Header := ⟨h.name, trimBlanks h.value⟩

namespace Parser

def plain : Parser where
  request input := do
    let (line, rest) ← firstLine input
    let [method, target, version] := line.splitOn 32 | none
    let method ← fromUtf8 method
    let target ← fromUtf8 target
    let found ← parseFields 257 rest
    let fields ← found
    if validToken method && version =
      ascii "HTTP/1.1" then some ⟨some method, some target, none, some 1, fields⟩ else none
  response input := do
    let (line, rest) ← firstLine input
    let status ← parseStatus ((line.drop 9).take 3)
    let found ← parseFields 257 rest
    let fields ← found
    if line.take 9 = ascii "HTTP/1.1 " &&
      (line.drop 12).all isText then some ⟨none, none, some status, some 1, fields⟩ else none
  headers input := parseFields 257 input

/-- The parser reads the heads that are written by the grammar, with up to 256 fields, and trims the field values. -/
structure Reads (p : Parser) : Prop where
  request : ∀ {method target : String} {fields : List Header}, validToken method = true → target ≠ "" →
    (nameBytes target).all isVisible = true → (∀ h ∈ fields, validateField h = .ok ()) → fields.length ≤ 256 →
    p.request (linesText (requestLine method target :: fields.map fieldLine) ++ CRLF) =
      some ⟨some method, some target, none, some 1, fields.map trimmed⟩
  response : ∀ {status : ℕ} {reason : String} {fields : List Header}, 100 ≤ status → status < 1000 →
    (nameBytes reason).all isText = true → (∀ h ∈ fields, validateField h = .ok ()) → fields.length ≤ 256 →
    p.response (linesText (statusLine status reason :: fields.map fieldLine) ++ CRLF) =
      some ⟨none, none, some status, some 1, fields.map trimmed⟩
  headers : ∀ {fields : List Header}, (∀ h ∈ fields, validateField h = .ok ()) → fields.length ≤ 256 →
    p.headers (linesText (fields.map fieldLine) ++ CRLF) = some (some (fields.map trimmed))

end Parser

lemma firstLine_line (hl : CR ∉ l) (rest : Bytes) : firstLine (l ++ CRLF ++ rest) = some (l, rest) := by
  have hk := position_skip hl [LF] (CRLF ++ rest)
  rw [show CR :: [LF] = CRLF from rfl, position_here CRLF rest (by simp [CRLF]), map_some, Nat.zero_add,
    ← append_assoc] at hk
  rw [firstLine, hk, map_some, append_assoc, take_left, ← append_assoc]
  congr 2
  exact drop_left' (by simp [CRLF])

lemma takeWhile_token (h : validToken name = true) (rest : Bytes) : (nameBytes name ++ 58 :: rest).takeWhile
    (· ≠ 58) = nameBytes name ∧
      (nameBytes name ++ 58 :: rest).dropWhile (· ≠ 58) = 58 :: rest := by
  have ha : ∀ b ∈ nameBytes name, decide (b ≠ 58) = true := by
    intro b hb
    have hb := token_bytes h b hb
    simp only [isTchar, Bool.and_eq_true, bne_iff_ne] at hb
    exact decide_eq_true hb.2
  exact ⟨by rw [takeWhile_append_of_pos ha]; simp, by rw [dropWhile_append_of_pos ha]; simp⟩

lemma parseField_fieldLine (ho : validateField h = .ok ()) : parseField (fieldLine h) = some (trimmed h) := by
  obtain ⟨hn, hv⟩ := validateField_ok ho
  have hl : fieldLine h = nameBytes h.name ++ 58 :: (32 :: h.value) := by simp [fieldLine, ascii]
  obtain ⟨ha, hd⟩ := takeWhile_token hn (32 :: h.value)
  have hr : trimBlanks (32 :: h.value) = trimBlanks h.value := by simp [trimBlanks, isBlank]
  have he : (trimBlanks h.value).all isText = true := by
    rw [List.all_eq_true]
    intro b hb
    exact hv b ((dropWhile_sublist isBlank).subset (( rdropWhile_prefix isBlank _).subset hb))
  unfold parseField
  rw [hl, ha, hd, Hpack.fromUtf8_nameBytes]
  simp only [bind_eq_bind, bind_some, drop_succ_cons, drop_zero, hr, hn, he, Bool.and_true, Bool.true_and]
  rw [if_pos (by simp)]
  rfl

lemma parseFields_lines {fields : List Header} (hf : ∀ h ∈ fields, validateField h = .ok ())
    (hl : fields.length < slots) :
    parseFields slots (linesText (fields.map fieldLine) ++ CRLF) = some (some (fields.map trimmed)) := by
  induction fields generalizing slots with
  | nil =>
    obtain ⟨n, rfl⟩ := Nat.exists_eq_succ_of_ne_zero (Nat.ne_of_gt hl)
    rfl
  | cons h fields ih =>
    obtain ⟨n, rfl⟩ := Nat.exists_eq_succ_of_ne_zero (Nat.ne_of_gt (Nat.lt_of_le_of_lt (Nat.zero_le _) hl))
    have ho := hf h (List.mem_cons_self ..)
    have hi := fieldLine_line ho
    obtain ⟨b, l, hc⟩ := List.exists_cons_of_ne_nil hi.ne_nil
    have hr : firstLine (linesText ((h :: fields).map fieldLine) ++ CRLF) =
      some (b :: l, linesText (fields.map fieldLine) ++ CRLF) := by
      rw [List.map_cons, linesText_cons, List.append_assoc, ← hc]
      exact firstLine_line hi.cr _
    have he := ih (fun h hh => hf h (List.mem_cons_of_mem _ hh)) (Nat.lt_of_succ_lt_succ hl)
    rw [parseFields, hr]
    simp only [← hc, parseField_fieldLine ho, he, Option.bind_eq_bind, Option.bind_some, Option.map_some,
      List.map_cons, Option.pure_def]

lemma splitOn_requestLine (hm : validToken method = true) (ha : (nameBytes target).all isVisible = true) :
    (requestLine method target).splitOn 32 = [nameBytes method, nameBytes target, ascii "HTTP/1.1"] := by
  have hp : requestLine method target = [32].intercalate [nameBytes method, nameBytes target, ascii "HTTP/1.1"] := by
    simp [requestLine, ascii, intercalate]
  rw [hp]
  refine splitOn_intercalate 32 ?_ (by simp)
  intro l hl hb
  simp only [mem_cons, not_mem_nil, or_false] at hl
  rcases hl with rfl | rfl | rfl
  · exact absurd (token_bytes hm 32 hb) (by decide)
  · exact absurd (all_eq_true.mp ha 32 hb) (by decide)
  · exact absurd hb (by decide)

lemma length_written (hl : 100 ≤ status) (hh : status < 1000) : (written 10 status).length = 3 := by
  have hg : Nat.log 10 status = 2 := (Nat.log_eq_iff (by norm_num)).mpr ⟨by omega, by omega⟩
  rw [written, length_map, numeral, if_neg (by omega), length_reverse,
    Nat.length_digits 10 status (by norm_num) (by omega), hg]

lemma parseStatus_written (hl : 100 ≤ status) (hh : status < 1000) : parseStatus (written 10 status) = some status := by
  have hi : (written 10 status).all isAsciiDigit = true := by
    rw [List.all_eq_true]
    intro b hb
    obtain ⟨d, hd, rfl⟩ := mem_written (by norm_num) hb
    exact (isAsciiDigit_digitByte hd).1
  rw [parseStatus, if_pos ⟨length_written hl hh, hi⟩, decimal_written (by omega)]

lemma Parser.plain_reads : Parser.plain.Reads where
  request := by
    intro _ _ fields hm _ ha hf hc
    have hl := requestLine_line hm ha
    have hr := firstLine_line hl.cr (linesText (fields.map fieldLine) ++ CRLF)
    simp only [plain, linesText_cons, append_assoc] at hr ⊢
    rw [hr]
    simp [splitOn_requestLine hm ha, Hpack.fromUtf8_nameBytes, parseFields_lines hf (Nat.lt_succ_of_le hc), hm]
  response := by
    intro status reason fields ho hh he hf hc
    have hl := statusLine_line status he
    have hr := firstLine_line hl.cr (linesText (fields.map fieldLine) ++ CRLF)
    have hn := length_written ho hh
    have hi : (statusLine status reason).take 9 = ascii "HTTP/1.1 " := by
      rw [statusLine, append_assoc, append_assoc]
      exact take_left' rfl
    have hd : (statusLine status reason).drop 9 = written 10 status ++ (ascii " " ++ nameBytes reason) := by
      rw [statusLine, append_assoc, append_assoc]
      exact drop_left' rfl
    have hb : ((statusLine status reason).drop 9).take 3 = written 10 status := by
      rw [hd]
      exact take_left' hn
    have ht : ((statusLine status reason).drop 12).all isText = true := by
      have hg : (statusLine status reason).drop 12 = ascii " " ++ nameBytes reason := by
        rw [show 12 = 9 + 3 from rfl, ← drop_drop, hd]
        exact drop_left' hn
      rw [hg, all_append, he]
      decide
    simp only [plain, linesText_cons, append_assoc] at hr ⊢
    rw [hr]
    simp [hb, parseStatus_written ho hh, parseFields_lines hf (Nat.lt_succ_of_le hc), hi]
    simpa using ht
  headers := fun hf hc => parseFields_lines hf (Nat.lt_succ_of_le hc)

end Turnloop.Http1
