import Turnloop.Http1.Parse
import Turnloop.Http1.Steps

/-! The head that a decoder reads from what the encoder wrote. -/

namespace Turnloop.Http1

open Http2 (Header validToken isAsciiDigit decimal isBlank)
open Hpack (nameBytes)
open Lib
open List hiding head

variable {cl : Option ℕ} {hs : List Header} {te : Bool} {h : Header}

def received (h : Header) : Header := header h.name (trimBlanks h.value)

lemma toLower_toLower {s : String} : s.toLower.toLower = s.toLower := by
  have hc : ∀ c : Char, c.toLower.toLower = c.toLower := by
    intro c
    by_cases h : c.val ≥ 'A'.val ∧ c.val ≤ 'Z'.val
    · have hl : c.toLower.val = c.val + 32 := congrArg Char.val (dif_pos h)
      refine dif_neg fun ha => ?_
      rw [hl] at ha
      simp only [ge_iff_le, UInt32.le_iff_toNat_le, UInt32.toNat_add] at h ha
      simp only [Char.reduceVal, UInt32.reduceToNat, Nat.reducePow] at h ha
      omega
    · have he : c.toLower = c := dif_neg h
      rw [he, he]
  change (s.map Char.toLower).map Char.toLower = s.map Char.toLower
  rw [String.map_map]
  congr 1
  funext c
  exact hc c

lemma trimBlanks_same (h : ∀ b ∈ v, isBlank b = false) : trimBlanks v = v := by
  have hf : v.dropWhile isBlank = v :=
    dropWhile_eq_self_iff.mpr fun hl => by simp [h _ (getElem_mem hl)]
  rw [trimBlanks, hf]
  exact rdropWhile_eq_self_iff.mpr fun hl => by simp [h _ (getLast_mem hl)]

lemma not_blank (ok : UInt8 → Bool) (hp : ok 32 = false) (ha : ok 9 = false) (h : ok b = true) : isBlank b = false := by
  cases hb : isBlank b with
  | false => rfl
  | true =>
    simp only [isBlank, Bool.or_eq_true, beq_iff_eq] at hb
    rcases hb with rfl | rfl
    · simp [h] at hp
    · simp [h] at ha

lemma lengthOf_received (ho : lengthOf cl h = .ok cl') : lengthOf cl (received h) = .ok cl' := by
  have hn : (received h).name.toLower = h.name.toLower := toLower_toLower
  unfold lengthOf at ho ⊢
  rw [hn]
  by_cases hl : h.name.toLower = "content-length"
  · rw [if_pos hl] at ho ⊢
    have hv : (received h).value = h.value := by
      refine trimBlanks_same fun b hb => not_blank isAsciiDigit rfl rfl ?_
      -- the value was checked to hold digits only
      split_ifs at ho with ha
      simp only [Bool.or_eq_true, Bool.not_eq_true', not_or, Bool.not_eq_false, all_eq_true] at ha
      exact ha.2 b hb
    rw [hv]
    exact ho
  · rw [if_neg hl] at ho ⊢
    exact ho

lemma codingOf_received (ho : codingOf te h = .ok te') : codingOf te (received h) = .ok te' := by
  have hn : (received h).name.toLower = h.name.toLower := toLower_toLower
  unfold codingOf at ho ⊢
  rw [hn]
  by_cases hc : h.name.toLower = "transfer-encoding"
  · rw [if_pos hc] at ho ⊢
    have hv : (received h).value = h.value := by
      refine trimBlanks_same fun b hb => not_blank (fun b => (ascii "chunked").contains (lowerByte b)) rfl rfl ?_
      split_ifs at ho with ha
      simp only [Bool.or_eq_true, Bool.not_eq_true', not_or, Bool.not_eq_false, eqIgnoreCase, beq_iff_eq] at ha
      have hm : lowerByte b ∈ h.value.map lowerByte := mem_map_of_mem hb
      rw [ha.2] at hm
      exact contains_iff_mem.mpr hm
    rw [hv]
    exact ho
  · rw [if_neg hc] at ho ⊢
    exact ho

lemma lengthsFrom_cons (ho : lengthsFrom cl te (h :: hs) = .ok r) :
    ∃ cl' te', lengthOf cl h = .ok cl' ∧ codingOf te h = .ok te' ∧ lengthsFrom cl' te' hs = .ok r := by
  rw [lengthsFrom] at ho
  cases hl : lengthOf cl h with
  | error => rw [hl] at ho; cases ho
  | ok cl' =>
    cases hc : codingOf te h with
    | error => rw [hl, hc] at ho; cases ho
    | ok te' =>
      rw [hl, hc] at ho
      exact ⟨cl', te', rfl, rfl, ho⟩

lemma lengthsFrom_received (ho : lengthsFrom cl te hs = .ok r) : lengthsFrom cl te (hs.map received) = .ok r := by
  induction hs generalizing cl te with
  | nil => exact ho
  | cons h hs ih =>
    obtain ⟨_, _, hl, hc, hr⟩ := lengthsFrom_cons ho
    rw [map_cons, lengthsFrom, lengthOf_received hl, codingOf_received hc]
    exact ih hr

lemma lengthsFrom_append (ho : lengthsFrom cl te hs = .ok (cl', te')) :
    lengthsFrom cl te (hs ++ later) = lengthsFrom cl' te' later := by
  induction hs generalizing cl te with
  | nil =>
    cases ho
    rfl
  | cons h hs ih =>
    obtain ⟨_, _, hl, hc, hr⟩ := lengthsFrom_cons ho
    rw [cons_append, lengthsFrom, hl, hc]
    exact ih hr

lemma lengths_ok : lengths head = .ok (cl, te) ↔
      lengthsFrom none false head.headers = .ok (cl, te) ∧ (cl.isSome && te) = false ∧
        (te && head.version = 0) = false := by
  unfold lengths
  cases hf : lengthsFrom none false head.headers with
  | error => simp [Bind.bind, Except.bind]
  | ok r =>
    obtain ⟨_, _⟩ := r
    simp only [Bind.bind, Except.bind, Pure.pure, Except.pure]
    split_ifs with hb ho
    · simp only [false_iff, Except.ok.injEq, Prod.mk.injEq, not_and]
      rintro ⟨rfl, rfl⟩ hn
      exact absurd hb (by simp [hn])
    · simp only [false_iff, Except.ok.injEq, Prod.mk.injEq, not_and]
      rintro ⟨rfl, rfl⟩ - hn
      exact absurd ho (by simp [hn])
    · simp only [Except.ok.injEq, Prod.mk.injEq]
      constructor
      · rintro ⟨rfl, rfl⟩
        exact ⟨⟨rfl, rfl⟩, by simpa using hb, by simpa using ho⟩
      · exact fun h => h.1

namespace BodyLength

def marks : BodyLength → Option ℕ × Bool
  | Known n => (some n, false)
  | Chunked => (none, true)
  | _ => (none, false)

def framing (body : BodyLength) (cl : Option ℕ) (te : Bool) : Option ℕ × Bool :=
  if cl.isNone && !te then body.marks else (cl, te)

end BodyLength

lemma lengthsFrom_framingField {body : BodyLength} (hk : ∀ n, body = .Known n → n < 2 ^ 64) :
    lengthsFrom none false (body.framingField.map received) = .ok body.marks := by
  refine lengthsFrom_received ?_
  cases body with
  | Known n =>
    have hi : (written 10 n).all isAsciiDigit = true := by
      rw [all_eq_true]
      intro b hb
      obtain ⟨d, hd, rfl⟩ := mem_written (by norm_num) hb
      exact (isAsciiDigit_digitByte hd).1
    have hn : "content-length".toLower = "content-length" := by decide +kernel
    have hl : lengthOf none ⟨"content-length", written 10 n⟩ = .ok (some n) := by
      rw [lengthOf, if_pos hn, decimal_written (hk n rfl), if_neg (by simp [hi, written_ne_nil])]
    have hc : codingOf false ⟨"content-length", written 10 n⟩ = .ok false :=
      if_neg (by rw [hn]; decide)
    rw [BodyLength.framingField, lengthsFrom, hl, hc]
    rfl
  | Chunked => decide +kernel
  | Empty => rfl
  | CloseDelimited => rfl
  | Omitted => rfl

lemma lengths_wire {body : BodyLength} (hl : lengths head = .ok (cl, te)) (hk : ∀ n, body = .Known n → n < 2 ^ 64)
    (hv : sent.version = 1)
    (hh : sent.headers = (head.headers ++ body.added cl te).map received) :
    lengths sent = .ok (body.framing cl te) := by
  obtain ⟨hf, hb, -⟩ := lengths_ok.mp hl
  have hw : lengthsFrom none false sent.headers = lengthsFrom cl te ((body.added cl te).map received) := by
    rw [hh, map_append, lengthsFrom_append (lengthsFrom_received hf)]
  have hg : lengthsFrom cl te ((body.added cl te).map received) = .ok (body.framing cl te) := by
    cases hn : cl.isNone && !te with
    | false =>
      rw [BodyLength.added, BodyLength.framing, hn]
      rfl
    | true =>
      obtain ⟨hc, he⟩ : cl = none ∧ te = false := by simpa using hn
      subst hc he
      exact lengthsFrom_framingField hk
  have hd : ((body.framing cl te).1.isSome && (body.framing cl te).2) = false := by
    rw [BodyLength.framing]
    split
    · cases body <;> rfl
    · exact hb
  rcases hr : body.framing cl te with ⟨_, _⟩
  rw [hr] at hg hd
  exact lengths_ok.mpr ⟨hw.trans hg, hd, by simp [hv]⟩

section

variable {reasons : Encoder.Reasons} {head : Head} {reason : Option String} {body : BodyLength}
    {text : Bytes} {e : Encoder}

lemma forM_ok {check : Header → Result Unit} (h : hs.forM check = .ok ()) : ∀ f ∈ hs, check f = .ok () := by
  induction hs with
  | nil =>
    intro f hf
    cases hf
  | cons g hs ih =>
    change (check g >>= fun _ => hs.forM check) = .ok () at h
    cases hg : check g with
    | error => rw [hg] at h; cases h
    | ok =>
      rw [hg] at h
      intro f hf
      rcases mem_cons.mp hf with rfl | hf
      · exact hg
      · exact ih h f hf

structure Encodes (reasons : Encoder.Reasons) (head : Head) (body : BodyLength) (cl : Option ℕ) (te : Bool)
    (first : Bytes) :
    Prop where
  fields : ∀ h ∈ head.headers, validateField h = .ok ()
  lengths : lengths head = .ok (cl, te)
  agrees : body.conflicts head cl te = false
  response : head.status = 0 → body ≠ .CloseDelimited ∧ body ≠ .Omitted
  closes : body = .CloseDelimited → 200 ≤ head.status ∧ head.status ≠ 204 ∧ head.status ≠ 304
  line : Encoder.startLine reasons head none = .ok first

lemma start_ok (h : Encoder.start reasons head body = .ok (text, e)) :
    ∃ cl te first, Encodes reasons head body cl te first ∧ e = ⟨body, false⟩ ∧
      text = linesText (first :: (head.headers ++ body.added cl te).map fieldLine) ++ CRLF := by
  unfold Encoder.start Encoder.encode at h
  cases hf : head.headers.forM validateField with
  | error => rw [hf] at h; cases h
  | ok u =>
    cases hl : lengths head with
    | error => rw [hf, hl] at h; cases h
    | ok r =>
      obtain ⟨cl, te⟩ := r
      rw [hf, hl] at h
      simp only [Bind.bind, Except.bind] at h
      split_ifs at h with hc hr hd
      cases hg : Encoder.startLine reasons head none with
      | error => rw [hg] at h; cases h
      | ok first =>
        rw [hg] at h
        cases h
        refine ⟨cl, te, first, ⟨forM_ok hf, hl, ?_, ?_, ?_, hg⟩, rfl, rfl⟩
        · simpa using hc
        · intro ht
          simpa [ht] using hr
        · intro hb
          simp [hb] at hd
          omega

lemma startLine_request (h : Encoder.startLine reasons head reason = .ok first) (ht : head.status = 0) :
    validToken head.method = true ∧ head.target ≠ "" ∧ (nameBytes head.target).all isVisible = true ∧
      first = requestLine head.method head.target := by
  rw [Encoder.startLine, if_pos ht] at h
  split_ifs at h with hm ha
  cases h
  simp only [Bool.or_eq_true, Bool.not_eq_true', not_or, Bool.not_eq_false, String.isEmpty_iff] at hm ha
  exact ⟨hm, ha.1, ha.2, rfl⟩

lemma startLine_response (h : Encoder.startLine reasons head reason = .ok first) (ht : head.status ≠ 0) :
    100 ≤ head.status ∧ head.status < 1000 ∧
      first = statusLine head.status (reason.getD ((reasons head.status).getD "")) := by
  rw [Encoder.startLine, if_neg ht] at h
  split_ifs at h with hb
  cases h
  simp only [Bool.or_eq_true, decide_eq_true_eq, not_or, not_lt, not_le] at hb
  exact ⟨hb.1, hb.2, rfl⟩

end

def Head.sent (head : Head) (fields : List Header) : Head :=
  if head.status = 0 then ⟨head.method, head.target, 0, 1, fields.map received, false⟩
  else ⟨"", "", head.status, 1, fields.map received, false⟩

def Head.mode (head : Head) : Mode := if head.status = 0 then .Request else .Response

lemma Head.sent_version (head : Head) : (head.sent fields).version = 1 := by
  unfold sent
  split_ifs <;> rfl

lemma Head.sent_headers (head : Head) (fields : List Header) : (head.sent fields).headers = fields.map received := by
  unfold sent
  split_ifs <;> rfl

lemma Head.sent_status (head : Head) (fields : List Header) : (head.sent fields).status = head.status := by
  unfold sent
  split_ifs with h
  · exact h.symm
  · rfl

def Encoder.Reasons.Printable (reasons : Encoder.Reasons) : Prop :=
  ∀ status reason, reasons status = some reason → (nameBytes reason).all isText = true

section

variable {p : Parser} {reasons : Encoder.Reasons} {head : Head} {fields : List Header} {first : Bytes} {d : Decoder}

lemma Encoder.Reasons.Printable.phrase (h : reasons.Printable) (status : ℕ) :
    (nameBytes ((reasons status).getD "")).all isText = true := by
  cases hr : reasons status with
  | none => decide
  | some reason => exact h status reason hr

lemma startLine_line (hr : reasons.Printable) (h : Encoder.startLine reasons head none = .ok first) : Line first := by
  by_cases ht : head.status = 0
  · obtain ⟨hm, -, ha, rfl⟩ := startLine_request h ht
    exact requestLine_line hm ha
  · obtain ⟨-, -, rfl⟩ := startLine_response h ht
    exact statusLine_line head.status (hr.phrase head.status)

lemma headers_trimmed (hc : fields.length ≤ limits.headers) :
    headers (fields.map trimmed) limits = .ok (fields.map received) := by
  rw [headers, if_neg (by simpa using hc), map_map]
  rfl

lemma parseHead_sent (hp : p.Reads) (hr : reasons.Printable) (hf : Encoder.startLine reasons head none = .ok first)
    (hl : ∀ h ∈ fields, validateField h = .ok ()) (hb : fields.length ≤ 256)
    (hc : fields.length ≤ d.limits.headers) (hm : d.mode = head.mode) :
    d.parseHead p (linesText (first :: fields.map fieldLine) ++ CRLF) = .ok (head.sent fields) := by
  by_cases ht : head.status = 0
  · obtain ⟨he, ha, hv, rfl⟩ := startLine_request hf ht
    rw [Head.mode, if_pos ht] at hm
    rw [Decoder.parseHead, hm, Head.sent, if_pos ht]
    simp only [hp.request he ha hv hl hb, headers_trimmed hc]
    rfl
  · obtain ⟨ho, hh, rfl⟩ := startLine_response hf ht
    rw [Head.mode, if_neg ht] at hm
    rw [Decoder.parseHead, hm, Head.sent, if_neg ht]
    simp only [Option.getD_none, hp.response ho hh (hr.phrase head.status) hl hb, headers_trimmed hc]
    rfl

def Head.Hosted (head : Head) : Prop :=
  ∃ h, (head.headers.filter fun h => h.name.toLower = "host") = [h] ∧ trimBlanks h.value ≠ []

lemma framingField_host (body : BodyLength) : (body.added cl te).filter (fun h => h.name.toLower = "host") = [] := by
  have hf : body.framingField.filter (fun h => h.name.toLower = "host") = [] := by
    cases body with
    | Known => exact filter_cons_of_neg (by show ¬ decide ("content-length".toLower = "host") = true; decide +kernel)
    | Chunked => decide +kernel
    | Empty => rfl
    | CloseDelimited => rfl
    | Omitted => rfl
  rw [BodyLength.added]
  split_ifs
  · exact hf
  · rfl

lemma hostless_sent (hh : head.status = 0 → head.Hosted) (hm : d.mode = head.mode) (body : BodyLength)
    : d.hostless (head.sent (head.headers ++ body.added cl te)) = false := by
  by_cases ht : head.status = 0
  · obtain ⟨h, hf, hv⟩ := hh ht
    have hb : (head.headers ++ body.added cl te).filter (fun h => h.name.toLower = "host") = [h] := by
      rw [filter_append, hf, framingField_host, append_nil]
    have hn : (head.sent (head.headers ++ body.added cl te)).headers.filter (fun h => h.name = "host") =
      [received h] := by
      rw [Head.sent_headers, filter_map]
      exact congrArg (map received) hb
    have hg : (head.sent (head.headers ++ body.added cl te)).get "host" = some (trimBlanks h.value) := by
      have hl : "host".toLower = "host" := by decide +kernel
      have he : ((fun h : Header => decide (h.name.toLower = "host")) ∘ received) =
        fun h => decide (h.name.toLower = "host") := by
        funext g
        exact congrArg (fun name => decide (name = "host")) toLower_toLower
      rw [Head.get, hl, ← head?_filter, Head.sent_headers, filter_map, he, hb]
      rfl
    rw [Decoder.hostless, hn, hg]
    simp [hv]
  · rw [Head.mode, if_neg ht] at hm
    simp [Decoder.hostless, hm]

lemma readHead_sent (hp : p.Reads) (hr : reasons.Printable)
    (he : Encodes reasons head body cl te first) (hm : d.mode = head.mode) (hh : head.status = 0 → head.Hosted)
    (hk : ∀ n, body = .Known n → n < 2 ^ 64) (hl : (head.headers ++ body.added cl te).length ≤ 256)
    (hc : (head.headers ++ body.added cl te).length ≤ d.limits.headers)
    (hf : ∀ h ∈ head.headers ++ body.added cl te, validateField h = .ok ())
    (hu : d.tunnel (head.sent (head.headers ++ body.added cl te)) = false) :
    d.readHead p (linesText (first :: (head.headers ++ body.added cl te).map fieldLine) ++ CRLF) =
      .ok (head.sent (head.headers ++ body.added cl te), body.framing cl te) := by
  have hn := lengths_wire he.lengths hk (head.sent_version) (head.sent_headers (head.headers ++ body.added cl te))
  rw [Decoder.readHead, parseHead_sent hp hr he.line hf hl hc hm]
  simp only [Bind.bind, Except.bind, hostless_sent hh hm, Bool.false_eq_true, if_false, Decoder.framing, hu, hn]
  rfl

lemma added_valid {body : BodyLength} : ∀ h ∈ body.added cl te, validateField h = .ok () := by
  have hf : ∀ h ∈ body.framingField, validateField h = .ok () := by
    cases body with
    | Known n =>
      intro h hh
      obtain rfl := mem_singleton.mp hh
      have he : (written 10 n).all isText = true := by
        rw [all_eq_true]
        exact fun b hb => isText_of_tchar (written_tchar (by norm_num) (by norm_num) b hb)
      exact if_neg (by simp only [he]; decide +kernel)
    | Chunked => decide +kernel
    | _ =>
      intro h hh
      cases hh
  intro h hh
  rw [BodyLength.added] at hh
  split_ifs at hh
  · exact hf h hh
  · cases hh

end

end Turnloop.Http1
