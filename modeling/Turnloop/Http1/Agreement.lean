import Turnloop.Http1.Phases

/-! What the encoder writes, the decoder reads. -/

namespace Turnloop.Http1

open Http2 (Header validToken)
open Hpack (nameBytes)
open Lib
open List hiding head

namespace Encoder

variable {e e' : Encoder} {chunks : List Bytes} {out : Bytes} {trailers : List Header}

lemma bodies_silent (hl : e.left = .Empty ∨ e.left = .Omitted) (ho : e.finished = false) :
    e.bodies chunks = (e, [], []) := by
  have hb : ∀ bytes, e.body bytes = if bytes.isEmpty then .ok ([], e) else .error (invalid "unexpected body") := by
    intro bytes
    rcases hl with hl | hl <;> simp [body, ho, hl]
  induction chunks with
  | nil => rfl
  | cons bytes chunks ih =>
    cases bytes with
    | nil | cons => simp [bodies, hb, ih]

lemma bodies_close (hl : e.left = .CloseDelimited) (ho : e.finished = false) :
    e.bodies chunks = (e, chunks.flatten, chunks.flatten) := by
  induction chunks with
  | nil => rfl
  | cons bytes chunks ih => simp [bodies, body, ho, hl, ih]

lemma bodies_chunked (hl : e.left = .Chunked) (ho : e.finished = false) :
    e.bodies chunks = (e, chunks.flatMap chunk, chunks.flatten) := by
  induction chunks with
  | nil => rfl
  | cons bytes chunks ih => simp [bodies, body, ho, hl, ih]

lemma bodies_known (chunks : List Bytes) (hl : e.left = .Known n) (ho : e.finished = false) :
    ∃ m, (e.bodies chunks).1 = ⟨.Known m, false⟩ ∧ (e.bodies chunks).2.1 = (e.bodies chunks).2.2 ∧
      (e.bodies chunks).2.2.length + m = n := by
  induction chunks generalizing e n with
  | nil =>
    cases e
    cases hl
    cases ho
    exact ⟨n, rfl, rfl, Nat.zero_add n⟩
  | cons bytes chunks ih =>
    by_cases hg : bytes.length > n
    · have hb : e.body bytes = .error (invalid "body exceeds content-length") := by simp [body, ho, hl, hg]
      rw [bodies, hb]
      exact ih hl ho
    · have hb : e.body bytes = .ok (bytes, { e with left := .Known (n - bytes.length) }) := by
        simp [body, ho, hl, hg]
      obtain ⟨m, hf, he, _⟩ := ih (e := { e with left := .Known (n - bytes.length) }) rfl ho
      rw [bodies, hb]
      refine ⟨m, hf, congrArg (bytes ++ ·) he, ?_⟩
      simp only [length_append]
      omega

lemma bodies_plain {body : BodyLength} (hb : body ≠ .Chunked) (chunks : List Bytes) :
    ((⟨body, false⟩ : Encoder).bodies chunks).1.left ≠ .Chunked ∧
      ((⟨body, false⟩ : Encoder).bodies chunks).2.1 = ((⟨body, false⟩ : Encoder).bodies chunks).2.2 := by
  cases body with
  | Chunked => exact absurd rfl hb
  | Empty => rw [bodies_silent (.inl rfl) rfl]; exact ⟨hb, rfl⟩
  | Omitted => rw [bodies_silent (.inr rfl) rfl]; exact ⟨hb, rfl⟩
  | CloseDelimited => rw [bodies_close rfl rfl]; exact ⟨hb, rfl⟩
  | Known n =>
    obtain ⟨m, hf, he, -⟩ := bodies_known (e := ⟨.Known n, false⟩) chunks rfl rfl
    exact ⟨by rw [hf]; simp, he⟩

lemma finish_ok (h : e.finish trailers = .ok (out, e')) :
    (∀ n, e.left = .Known n → n = 0) ∧ (e.left ≠ .Chunked → trailers = [] ∧ out = []) ∧
      (∀ h ∈ trailers, validateField h = .ok ()) ∧
      (e.left = .Chunked → out = written 16 0 ++ CRLF ++ (linesText (trailers.map fieldLine) ++ CRLF)) := by
  unfold finish at h
  simp only [Bind.bind, Except.bind] at h
  split_ifs at h with hu hr
  cases hc : trailers.forM validateTrailer with
  | error => rw [hc] at h; cases h
  | ok =>
    rw [hc] at h
    cases h
    have hv : ∀ h ∈ trailers, validateField h = .ok () := by
      intro h hh
      have hk := forM_ok hc h hh
      unfold validateTrailer at hk
      split_ifs at hk
      exact hk
    refine ⟨fun n hn => ?_, fun he => ⟨?_, if_neg he⟩, hv, fun hd => ?_⟩
    · simp only [incomplete, hn, Bool.or_eq_true, not_or, decide_eq_true_eq, not_not] at hu
      exact hu.2
    · simpa [he] using hr
    · rw [closing, if_pos hd, append_assoc]
      rfl

end Encoder

def bodiless (told : String) (head : Head) : Bool := told = "HEAD" || head.status = 204 || head.status = 304

structure Framed (told : String) (head : Head) (body : BodyLength) (content : Bytes) : Prop where
  final : 200 ≤ head.status
  tunnel : told = "CONNECT" → 300 ≤ head.status
  bare : bodiless told head = true → body ≠ .Chunked ∧ content = []
  unframed : head.status = 204 → lengths head = .ok (none, false) ∧ ∀ n, body ≠ .Known n
  marked : bodiless told head = false → body = .Empty ∨ body = .Omitted → lengths head = .ok (some 0, false)

def Head.wire (head : Head) (body : BodyLength) : List Header :=
  match lengths head with
  | .ok (cl, te) => head.headers ++ body.added cl te
  | .error _ => head.headers

namespace Decoder

variable {p : Parser} {d : Decoder}

def Awaits (d : Decoder) (body : BodyLength) (rest : Bytes) : Prop :=
  (d.state = .End ∧ rest = [] ∧ body ≠ .Chunked) ∨ (∃ n ≠ 0, d.state = .Fixed n ∧ body = .Known n) ∨
    (d.state = .ChunkSize ∧ body = .Chunked) ∨ (d.state = .Eof ∧ body = .CloseDelimited)

section

variable {body : BodyLength} {chunks : List Bytes} {trailers : List Header} {last : Bytes} {e' : Encoder}

lemma ends_body (hp : p.Reads) (hf : ((⟨body, false⟩ : Encoder).bodies chunks).1.finish trailers = .ok (last, e'))
    (ha : d.Awaits body (((⟨body, false⟩ : Encoder).bodies chunks).2.1 ++ last))
    (hi : ∀ bytes ∈ chunks, bytes.length < 2 ^ 64)
    (ho : ∀ h ∈ trailers, forbiddenTrailer h.name.toLower = false) (hl : trailers.length ≤ 256)
    (hd : d.limits.Suffice (((⟨body, false⟩ : Encoder).bodies chunks).2.1 ++ last) trailers.length) :
    d.Ends p (((⟨body, false⟩ : Encoder).bodies chunks).2.1 ++ last)
      ((⟨body, false⟩ : Encoder).bodies chunks).2.2 trailers
      (body = .CloseDelimited) := by
  obtain ⟨hc, hg, hv, hk⟩ := Encoder.finish_ok hf
  by_cases hh : body = .Chunked
  · subst hh
    rw [Encoder.bodies_chunked rfl rfl] at hk hd ⊢
    rw [hk rfl] at hd ⊢
    rcases ha with ⟨-, -, he⟩ | ⟨n, -, -, hn⟩ | ⟨hs, -⟩ | ⟨-, hn⟩
    · exact absurd rfl he
    · cases hn
    · exact ends_chunked hp hs hi hv ho hl hd
    · cases hn
  · obtain ⟨hq, ht⟩ := Encoder.bodies_plain hh chunks
    obtain ⟨rfl, rfl⟩ := hg hq
    rw [ht, append_nil] at ha ⊢
    rcases ha with ⟨hs, hr, -⟩ | ⟨n, hn, hs, hb⟩ | ⟨-, hb⟩ | ⟨hs, hb⟩
    · rw [hr]
      exact ends_bare hs
    · subst hb
      obtain ⟨m, hu, -, _⟩ := Encoder.bodies_known (e := ⟨.Known n, false⟩) chunks rfl rfl
      have hm : m = 0 := hc m (by rw [hu])
      have hw : ((⟨.Known n, false⟩ : Encoder).bodies chunks).2.2.length = n := by omega
      exact ends_fixed (ne_nil_of_length_pos (by omega)) (by rw [hw]; exact hs)
    · exact absurd hb hh
    · rw [hb]
      exact ends_eof (by rw [hs])

lemma rest_nil (hf : ((⟨body, false⟩ : Encoder).bodies chunks).1.finish trailers = .ok (last, e'))
    (hb : body ≠ .Chunked)
    (hc : ((⟨body, false⟩ : Encoder).bodies chunks).2.2 = []) :
    ((⟨body, false⟩ : Encoder).bodies chunks).2.1 ++ last = [] := by
  obtain ⟨hl, he⟩ := Encoder.bodies_plain hb chunks
  obtain ⟨-, rfl⟩ := (Encoder.finish_ok hf).2.1 hl
  rw [he, hc, append_nil]

lemma content_known (hf : ((⟨.Known n, false⟩ : Encoder).bodies chunks).1.finish trailers = .ok (last, e')) :
    ((⟨.Known n, false⟩ : Encoder).bodies chunks).2.2.length = n := by
  obtain ⟨m, hs, -, _⟩ := Encoder.bodies_known (e := ⟨.Known n, false⟩) chunks rfl rfl
  have hm : m = 0 := (Encoder.finish_ok hf).1 m (by rw [hs])
  omega

lemma framing_agrees (ha : body.conflicts head cl te = false) (hb : body ≠ .Omitted) :
    body.framing cl te = body.marks ∨ (body = .Empty ∧ body.framing cl te = (some 0, false)) := by
  unfold BodyLength.framing
  cases body with
  | Known n | Empty | Chunked | CloseDelimited => cases cl <;> cases te <;> simp_all [BodyLength.conflicts,
      BodyLength.marks]
  | Omitted => exact absurd rfl hb

/-- The state for a body by its framing; `rest` is that for a body without any. -/
def bodyState (rest : State) (framing : Option ℕ × Bool) : State :=
  if framing.2 then .ChunkSize else match framing.1 with
    | some n => if n = 0 then .End else .Fixed n
    | none => rest

lemma awaits_framed {d' : Decoder} (hf : ((⟨body, false⟩ : Encoder).bodies chunks).1.finish trailers = .ok (last, e'))
    (ha : body.conflicts head cl te = false) (hs : d'.state = bodyState rest (body.framing cl te))
    (hc : body = .CloseDelimited → rest = .Eof)
    (he : body = .Empty ∨ body = .Omitted → bodyState rest (body.framing cl te) = .End) :
    d'.Awaits body (((⟨body, false⟩ : Encoder).bodies chunks).2.1 ++ last) := by
  have hm : body ≠ .Empty → body ≠ .Omitted → d'.state = bodyState rest body.marks := by
    intro hd ho
    rcases framing_agrees ha ho with hm | ⟨h, -⟩
    · rw [hs, hm]
    · exact absurd h hd
  have hg : body = .Empty ∨ body = .Omitted →
    d'.Awaits body (((⟨body, false⟩ : Encoder).bodies chunks).2.1 ++ last) := by
    intro hb
    have hh : body ≠ .Chunked := by rcases hb with rfl | rfl <;> simp
    exact .inl ⟨hs.trans (he hb), rest_nil hf hh (by rw [Encoder.bodies_silent hb rfl]), hh⟩
  cases hb : body with
  | Known n =>
    subst hb
    by_cases hn : n = 0
    · have hk := length_eq_zero_iff.mp ((content_known hf).trans hn)
      exact .inl ⟨by rw [hm (by simp) (by simp), hn]; rfl, rest_nil hf (by simp) hk, by simp⟩
    · exact .inr (.inl ⟨n, hn, (hm (by simp) (by simp)).trans (if_neg hn), rfl⟩)
  | Chunked => exact .inr (.inr (.inl ⟨by rw [hm (by simp [hb]) (by simp [hb]), hb]; rfl, rfl⟩))
  | CloseDelimited =>
    refine .inr (.inr (.inr ⟨?_, rfl⟩))
    rw [hm (by simp [hb]) (by simp [hb]), hb, hc hb]
    rfl
  | Empty => exact hb ▸ hg (.inl hb)
  | Omitted => exact hb ▸ hg (.inr hb)

lemma enter_request (hm : d.mode = .Request) {framing : Option ℕ × Bool} :
    (d.enter sent framing.1 framing.2).state = bodyState .End framing := by
  obtain ⟨cl, te⟩ := framing
  unfold enter bodyState
  cases te <;> cases cl <;> simp [hm]

lemma enter_response {sent : Head} (hm : d.mode = .Response) (hf : sent.status ≠ 101)
    (hu : (d.connectRequest && (200 ≤ sent.status && sent.status < 300)) = false) (framing : Option ℕ × Bool) :
    (d.enter sent framing.1 framing.2).state =
      if d.headRequest || sent.status = 204 || sent.status = 304 then .End else bodyState .Eof framing := by
  obtain ⟨cl, te⟩ := framing
  unfold enter bodyState
  rw [if_neg (by simp [hf, hu])]
  by_cases hb : d.headRequest || sent.status = 204 || sent.status = 304
  · rw [if_pos (by simpa [hm] using hb), if_pos hb]
  · rw [if_neg (by simpa [hm] using hb), if_neg hb]
    cases te <;> cases cl <;> simp [hm]

end

section

variable {reasons : Encoder.Reasons} {head : Head} {body : BodyLength} {cl : Option ℕ} {te : Bool} {first : Bytes}

lemma wire_eq (he : Encodes reasons head body cl te first) : head.wire body = head.headers ++ body.added cl te := by
  rw [Head.wire, he.lengths]

lemma takes_head (hp : p.Reads) (hr : reasons.Printable) (he : Encodes reasons head body cl te first)
    (hs : d.state = .Head) (hm : d.mode = head.mode) (ho : head.status = 0 → head.Hosted)
    (hk : ∀ n, body = .Known n → n < 2 ^ 64) (hb : (head.wire body).length ≤ 256)
    (hi : d.limits.Suffice (linesText (first :: (head.wire body).map fieldLine) ++ CRLF) (head.wire body).length)
    (hu : d.tunnel (head.sent (head.wire body)) = false) (hf : head.status = 0 ∨ 200 ≤ head.status)
    (hn : head.status = 204 → body.framing cl te = (none, false)) :
    (host p).Takes d (linesText (first :: (head.wire body).map fieldLine) ++ CRLF)
      [.Head { head.sent (head.wire body) with keepAlive := persistent (head.sent (head.wire body)) }]
      ((d.noteHead (head.sent (head.wire body))).enter (head.sent (head.wire body)) (body.framing cl te).1
        (body.framing cl te).2) := by
  have hw := wire_eq he
  have hc : ∀ h ∈ head.wire body, validateField h = .ok () := by
    intro h hh
    rw [hw] at hh
    rcases mem_append.mp hh with hh | hh
    · exact he.fields h hh
    · exact added_valid h hh
  have hg : ∀ l ∈ first :: (head.wire body).map fieldLine, Line l := by
    intro l hl
    rcases mem_cons.mp hl with rfl | hl
    · exact startLine_line hr he.line
    · obtain ⟨h, hh, rfl⟩ := mem_map.mp hl
      exact fieldLine_line (hc h hh)
  have hd : d.readHead p (linesText (first :: (head.wire body).map fieldLine) ++ CRLF) =
      .ok (head.sent (head.wire body), body.framing cl te) := by
    rw [hw] at hb hi hc hu ⊢
    exact readHead_sent hp hr he hm ho hk hb hi.headers hc hu
  refine takes_step (some _) (fun rest => ?_) (by simp [progressed])
  rw [receiveInner, hs]
  simp only [receiveHead, block_lines hg (cons_ne_nil _ _) hi.headBytes hi.lineBytes, take_left, hd]
  have ht := head.sent_status (head.wire body)
  rw [takeHead, ht]
  have hq : ¬ (d.mode = .Response && (100 ≤ head.status && head.status < 200) && head.status ≠ 101) = true := by
    simp only [Bool.and_eq_true, decide_eq_true_eq, not_and]
    omega
  rw [if_neg hq, if_neg]
  simp only [Bool.and_eq_true, decide_eq_true_eq, not_and]
  rintro ⟨-, hv⟩ hx
  rw [hn hv] at hx
  cases hx

lemma awaits_sent (limits : Limits) (he : Encodes reasons head body cl te first)
    (hf : ((⟨body, false⟩ : Encoder).bodies chunks).1.finish trailers = .ok (last, e'))
    (hr : head.status ≠ 0 → Framed told head body ((⟨body, false⟩ : Encoder).bodies chunks).2.2)
    (hn : sent.status = head.status) :
    ((((start head.mode limits (some told)).noteHead sent).enter sent (body.framing cl te).1
      (body.framing cl te).2)).Awaits body
      (((⟨body, false⟩ : Encoder).bodies chunks).2.1 ++ last) := by
  by_cases hs : head.status = 0
  · have hm : ((start head.mode limits (some told)).noteHead sent).mode = .Request := by
      simp [start, responseTo, new, noteHead, Head.mode, hs]
    obtain ⟨hc, ho⟩ := he.response hs
    refine awaits_framed hf he.agrees (enter_request hm) (fun h => absurd h hc) fun hg => ?_
    obtain rfl := hg.resolve_right ho
    rcases framing_agrees he.agrees ho with ha | ⟨-, hz⟩
    · rw [ha]
      rfl
    · rw [hz]
      rfl
  · have hm : ((start head.mode limits (some told)).noteHead sent).mode = .Response := by
      simp [start, responseTo, new, noteHead, Head.mode, hs]
    obtain ⟨_, hu, hk, -, hp⟩ := hr hs
    have ht' : (((start head.mode limits (some told)).noteHead sent).connectRequest &&
        (200 ≤ sent.status && sent.status < 300)) = false := by
      simp only [start, responseTo, new, noteHead, Option.elim_some, hn, Bool.and_eq_false_iff, decide_eq_false_iff_not]
      by_cases hl : told = "CONNECT"
      · have := hu hl
        exact .inr (.inr (by omega))
      · exact .inl hl
    have ht := enter_response hm (by omega) ht' (body.framing cl te)
    have hd : (((start head.mode limits (some told)).noteHead sent).headRequest || sent.status = 204 ||
      sent.status = 304) =
        bodiless told head := by
      simp [start, responseTo, new, noteHead, bodiless, hn]
    rw [hd] at ht
    cases hb : bodiless told head with
    | true =>
      obtain ⟨hh, hq⟩ := hk hb
      rw [hb] at ht
      exact .inl ⟨ht, rest_nil hf hh hq, hh⟩
    | false =>
      rw [hb] at ht
      refine awaits_framed hf he.agrees ht (fun _ => rfl) fun hg => ?_
      have hz := (hp hb hg).symm.trans he.lengths
      cases hz
      rfl

lemma enter_same (d : Decoder) (sent : Head) (cl : Option ℕ) (te : Bool) :
    (d.enter sent cl te).limits = d.limits ∧ (d.enter sent cl te).upgradeRequest = d.upgradeRequest := by
  unfold enter
  split_ifs <;> first | exact ⟨rfl, rfl⟩ | (cases cl <;> exact ⟨rfl, rfl⟩)

lemma tunnel_start {limits : Limits} (hf : head.status ≠ 0 → Framed told head body content) :
    (start head.mode limits (some told)).tunnel (head.sent fields) = false := by
  by_cases hs : head.status = 0
  · have hm : (start head.mode limits (some told)).mode = .Request := if_pos hs
    simp [tunnel, hm]
  · by_cases hl : told = "CONNECT"
    · have hn := (hf hs).tunnel hl
      simp only [tunnel, head.sent_status, Bool.and_eq_false_iff, decide_eq_false_iff_not]
      exact .inr (.inr (by omega))
    · simp [tunnel, start, responseTo, hl]

lemma unframed_wire (he : Encodes reasons head body cl te first)
    (hf : head.status ≠ 0 → Framed told head body content) (hs : head.status = 204) :
    body.framing cl te = (none, false) := by
  have hf := hf (by omega)
  obtain ⟨hl, hb⟩ := hf.unframed hs
  have hc := (hf.bare (by simp [bodiless, hs])).1
  cases hl.symm.trans he.lengths
  cases body with
  | Known n => exact absurd rfl (hb n)
  | Chunked => exact absurd rfl hc
  | _ => rfl

lemma added_cases (body : BodyLength) (cl : Option ℕ) (te : Bool) :
    body.added cl te = [] ∨ body.added cl te = body.framingField := by
  unfold BodyLength.added
  split_ifs
  · exact .inr rfl
  · exact .inl rfl

theorem encoded_message_decodes (hp : p.Reads) {reasons : Encoder.Reasons} (hreasons : reasons.Printable) {head : Head}
    {body : BodyLength} {text last : Bytes} {e e' : Encoder} {chunks : List Bytes} {trailers : List Header}
    (hstart : Encoder.start reasons head body = .ok (text, e))
    (hfinish : (e.bodies chunks).1.finish trailers = .ok (last, e'))
    (hknown : ∀ n, body = .Known n → n < 2 ^ 64) (hsizes : ∀ bytes ∈ chunks, bytes.length < 2 ^ 64)
    (hhost : head.status = 0 → head.Hosted) (told : String)
    (hframed : head.status ≠ 0 → Framed told head body (e.bodies chunks).2.2) (hslots : (head.wire body).length ≤ 256)
    (htrailers : trailers.length ≤ 256) (hforbidden : ∀ h ∈ trailers, forbiddenTrailer h.name.toLower = false)
    {limits : Limits}
    (hlimits : limits.Suffice (text ++ ((e.bodies chunks).2.1 ++ last)) (max (head.wire body).length trailers.length))
    (hplain : (start head.mode limits (some told)).asksUpgrade (head.sent (head.wire body)) = false) :
    let r := (start head.mode limits (some told)).decode p (text ++ ((e.bodies chunks).2.1 ++ last))
      (body = .CloseDelimited)
    ∃ got added d', Event.merge r.1 = .Head got :: (shown (e.bodies chunks).2.2 ++ shownTrailers trailers ++ [.End]) ∧
      r.2 = some (d', []) ∧ d'.state = .Done ∧
      (if head.status = 0 then got.method = head.method ∧ got.target = head.target else got.status = head.status) ∧
      got.headers = (head.headers ++ added).map received ∧ (added = [] ∨ added = body.framingField) := by
  let d := start head.mode limits (some told)
  intro r
  obtain ⟨cl, te, _, he, rfl, rfl⟩ := start_ok hstart
  have hw := wire_eq he
  have hf : head.status = 0 ∨ 200 ≤ head.status := by
    by_cases hs : head.status = 0
    · exact .inl hs
    · exact .inr (hframed hs).final
  rw [← hw] at hlimits
  have hh := takes_head (d := d) hp hreasons he rfl rfl hhost hknown hslots (hlimits.of_append (le_max_left _ _)).1
    (tunnel_start hframed) hf (unframed_wire he hframed)
  have ha := awaits_sent limits he hfinish hframed (head.sent_status (head.wire body))
  obtain ⟨hm, hu⟩ := enter_same (d.noteHead (head.sent (head.wire body))) (head.sent (head.wire body))
    (body.framing cl te).1 (body.framing cl te).2
  have hr : ((d.noteHead (head.sent (head.wire body))).enter (head.sent (head.wire body)) (body.framing cl te).1
      (body.framing cl te).2).limits.Suffice
        (((⟨body, false⟩ : Encoder).bodies chunks).2.1 ++ last) trailers.length := by
    rw [hm]
    exact (hlimits.of_append (le_max_right _ _)).2
  obtain ⟨_, d', hd, ho, hb⟩ := ends_body hp hfinish ha hsizes hforbidden htrailers hr
  have hl := decode_takes (y := ((⟨body, false⟩ : Encoder).bodies chunks).2.1 ++ last) hh (body = .CloseDelimited)
  rw [hd, hw] at hl
  refine ⟨{ head.sent (head.headers ++ body.added cl te) with
      keepAlive := persistent (head.sent (head.headers ++ body.added cl te)) },
    body.added cl te, d', (congrArg (fun r => Event.merge r.1) hl).trans ?_, congrArg Prod.snd hl, ho, ?_,
    head.sent_headers _, added_cases body cl te⟩
  · rw [ending, hu, noteHead, show d.asksUpgrade _ = false from hplain] at hb
    exact congrArg (cons _) hb
  · split_ifs with hs
    · simp [Head.sent, hs]
    · exact head.sent_status _

def okReason : Encoder.Reasons := fun status => if status = 200 then some "OK" else none

lemma okReason_printable : okReason.Printable := by
  intro _ _ h
  unfold okReason at h
  split_ifs at h
  cases h
  decide

def greeting : Head := ⟨"", "", 200, 1, [⟨"Content-Type", ascii "text/plain "⟩], false⟩

def greetingText : Bytes := ascii "HTTP/1.1 200 OK\r\nContent-Type: text/plain \r\ntransfer-encoding: chunked\r\n\r\n"

theorem encoded_message_decodes_chunked :
    let out := greetingText ++
      (((⟨.Chunked, false⟩ : Encoder).bodies [ascii "hel", ascii "lo"]).2.1 ++ ascii "0\r\nx-sum: 5\r\n\r\n")
    let r := (start .Response .default (some "GET")).decode .plain out false
    ∃ got added d', Event.merge r.1 = .Head got :: (shown (ascii "hello") ++ shownTrailers [⟨"x-sum", ascii "5"⟩] ++
        [.End]) ∧
      r.2 = some (d', []) ∧ d'.state = .Done ∧ got.status = 200 ∧
      got.headers = (greeting.headers ++ added).map received ∧ (added = [] ∨ added = BodyLength.Chunked.framingField) :=
  encoded_message_decodes Parser.plain_reads okReason_printable
    (show Encoder.start okReason greeting .Chunked = .ok (greetingText, ⟨.Chunked, false⟩) by decide +kernel)
    (show ((⟨.Chunked, false⟩ : Encoder).bodies [ascii "hel", ascii "lo"]).1.finish [⟨"x-sum", ascii "5"⟩] =
      .ok (ascii "0\r\nx-sum: 5\r\n\r\n", ⟨.Chunked, true⟩) by decide +kernel)
    (fun n h => by cases h) (by decide +kernel) (fun h => by cases h) "GET"
    (fun _ => ⟨by decide, fun h => absurd h (by decide), fun h => absurd h (by decide), fun h => absurd h (by decide),
      fun _ h => absurd h (by decide)⟩)
    (by decide +kernel) (by decide +kernel) (by decide +kernel)
      ⟨by decide +kernel, by decide +kernel, by decide +kernel⟩ rfl

def silent : Head := ⟨"", "", 200, 1, [], false⟩

theorem empty_response_unfinished :
    let text := ascii "HTTP/1.1 200 \r\n\r\n"
    let d := start .Response .default (some "GET")
    Encoder.start (fun _ => none) silent .Empty = .ok (text, ⟨.Empty, false⟩) ∧
      (⟨.Empty, false⟩ : Encoder).finish [] = .ok ([], ⟨.Empty, true⟩) ∧
      (d.decode .plain text false).2.map (fun r => (r.1.state, r.2)) = some (.Eof, []) ∧
      Event.End ∉ (d.decode .plain text false).1 := by
  decide +kernel

end

end Decoder

end Turnloop.Http1
