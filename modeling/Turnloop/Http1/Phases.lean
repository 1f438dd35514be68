import Turnloop.Http1.Received
import Turnloop.Http1.Fragments

/-! How the decoder takes each part of a message that the encoder wrote. -/

namespace Turnloop.Http1

open Http2 (Header validToken)
open Hpack (nameBytes)
open Lib List

namespace Decoder

variable {p : Parser} {d : Decoder}

lemma takes_step (event : Option Event)
    (h : ∀ rest, d.receiveInner p (x ++ rest) = (d', .ok ⟨x.length, event⟩))
    (hm : progressed x.length event d' = true) :
    (host p).Takes d x event.toList d' := Stepper.Takes.step (fun rest => step_some.mpr (h rest)) hm

def ending (d : Decoder) : Event := if d.upgradeRequest then .Upgrade else .End

lemma takes_end (hs : d.state = .End) : (host p).Takes d [] [d.ending] { d with state := .Done } :=
  takes_step (some d.ending) (fun rest => by rw [receiveInner, hs]; rfl) (by simp [progressed])

lemma run_done (hs : d.state = .Done) : (host p).run d [] = ([], .waiting d []) := by
  have hp : (host p).step d [] = some (0, none, d) := step_some.mpr (by rw [receiveInner, hs])
  rw [Stepper.run_idle hp (by simp [host, progressed, wantsStep, hs])]
  rfl

lemma run_end (hs : d.state = .End) : (host p).run d [] = ([d.ending], .waiting { d with state := .Done } []) :=
  (takes_end hs).run (run_done rfl)

lemma takes_slice (next : ℕ → State) (hb : bytes ≠ [])
    (hi : ∀ z, d.receiveInner p z = d.receiveSlice bytes.length next z) :
    (host p).Takes d bytes [.Body bytes] { d with state := next 0 } := by
  have hp : 0 < bytes.length := length_pos_of_ne_nil hb
  refine takes_step (some (.Body bytes)) (fun rest => ?_) (by simp [progressed])
  have hm : min (bytes ++ rest).length bytes.length = bytes.length := min_eq_right (by simp)
  rw [hi, receiveSlice, hm, if_pos hp, take_left, Nat.sub_self]

lemma takes_fixed (hb : bytes ≠ []) (hs : d.state = .Fixed bytes.length) : (host p).Takes d bytes [.Body bytes]
    { d with state := .End } :=
  takes_slice (fun n => if n = 0 then .End else .Fixed n) hb fun z => by rw [receiveInner, hs]

lemma chunkSize_written (hn : n < 2 ^ 64) : chunkSize (written 16 n) = .ok n := by
  have hc : ∀ b ∈ written 16 n, isTchar b = true := written_tchar (by norm_num) (by norm_num)
  have hh : ∀ b ∈ written 16 n, ((hexDigit b).isSome = true ∧ b ≠ 59) ∧ ¬ (b < 32 || b == 127) = true := by
    intro b hb
    obtain ⟨v, _, rfl⟩ := mem_written (by norm_num) hb
    interval_cases v <;> decide
  have ha : (written 16 n).takeWhile (· ≠ 59) = written 16 n :=
    takeWhile_eq_self_iff.mpr fun b hb => decide_eq_true (hh b hb).1.2
  have hl : (written 16 n).all (fun b => (hexDigit b).isSome) = true := by
    rw [all_eq_true]
    exact fun b hb => (hh b hb).1.1
  have hd : (written 16 n).any (fun b => b < 32 || b == 127) = false := by
    rw [any_eq_false]
    exact fun b hb => (hh b hb).2
  unfold chunkSize
  simp only [ha, hl, hd, hexadecimal_written hn]
  simp [written_ne_nil]

lemma takes_chunkSize (hs : d.state = .ChunkSize) (hn : n < 2 ^ 64) (hl : (written 16 n).length ≤ d.limits.lineBytes) :
    (host p).Takes d (written 16 n ++ CRLF) [] { d with state := if n = 0 then .Trailers else .Chunk n } := by
  have hc : CR ∉ written 16 n := fun hm => absurd (written_tchar (by norm_num) (by norm_num) CR hm) (by decide)
  refine takes_step none (fun rest => ?_) (by simp [progressed, CRLF])
  have ht : position CRLF (written 16 n ++ CRLF ++ rest) = some (written 16 n).length := by
    have hk := position_skip hc [LF] (CRLF ++ rest)
    rw [show CR :: [LF] = CRLF from rfl, position_here CRLF rest (by simp [CRLF]), Option.map_some, Nat.zero_add] at hk
    rw [append_assoc, hk]
  rw [receiveInner, hs]
  simp only [receiveChunkSize, ht, Option.getD_some, if_neg (not_lt.mpr hl)]
  rw [append_assoc, take_left, chunkSize_written hn, length_append]
  rfl

lemma takes_chunkEnd (hs : d.state = .ChunkEnd) : (host p).Takes d CRLF [] { d with state := .ChunkSize } := by
  refine takes_step none (fun rest => ?_) (by simp [progressed, CRLF])
  rw [receiveInner, hs]
  simp [receiveChunkEnd, CRLF]

lemma takes_chunk (hs : d.state = .ChunkSize) (hb : bytes ≠ []) (hn : bytes.length < 2 ^ 64)
    (hl : (written 16 bytes.length).length ≤ d.limits.lineBytes) :
    (host p).Takes d (Encoder.chunk bytes) [.Body bytes] d := by
  have hp : bytes.length ≠ 0 := (length_pos_of_ne_nil hb).ne'
  have hi := takes_chunkSize (p := p) hs hn hl
  rw [if_neg hp] at hi
  have hc : (host p).Takes { d with state := .Chunk bytes.length } bytes [.Body bytes] { d with state := .ChunkEnd } :=
    takes_slice (fun n => if n = 0 then .ChunkEnd else .Chunk n) hb fun z => rfl
  have he : (host p).Takes { d with state := .ChunkEnd } CRLF [] d := by
    have ha : { d with state := .ChunkSize } = d := by
      cases d
      cases hs
      rfl
    have hx : (host p).Takes { d with state := .ChunkEnd } CRLF [] { d with state := .ChunkSize } := takes_chunkEnd rfl
    rwa [ha] at hx
  have hm : bytes.isEmpty = false := by simpa using hb
  have hd := (hi.trans hc).trans he
  rw [Encoder.chunk, hm]
  simpa [append_assoc] using hd

lemma takes_chunks (hs : d.state = .ChunkSize) {chunks : List Bytes} (hn : ∀ bytes ∈ chunks, bytes.length < 2 ^ 64)
    (hl : (chunks.flatMap Encoder.chunk).length ≤ d.limits.lineBytes) :
    (host p).Takes d (chunks.flatMap Encoder.chunk) ((chunks.filter (· ≠ [])).map .Body) d := by
  induction chunks with
  | nil => exact .refl d
  | cons bytes chunks ih =>
    rw [flatMap_cons, length_append] at hl
    have hr := ih (fun bytes hb => hn bytes (mem_cons_of_mem _ hb)) (by omega)
    by_cases hy : bytes = []
    · rw [List.filter_cons_of_neg (by simpa using hy), List.flatMap_cons, hy]
      exact hr
    · have hh : (written 16 bytes.length).length ≤ (Encoder.chunk bytes).length := by
        have he : bytes.isEmpty = false := by simpa using hy
        rw [Encoder.chunk, he]
        simp only [Bool.false_eq_true, if_false, length_append]
        omega
      have hf := takes_chunk (p := p) hs hy (hn bytes (mem_cons_self ..)) (by omega)
      rw [filter_cons_of_pos (by simpa using hy), flatMap_cons, map_cons]
      exact hf.trans hr

def shownTrailers (trailers : List Header) : List Event :=
  if trailers = [] then [] else [.Trailers (trailers.map received)]

lemma takes_trailers (hp : p.Reads) (hs : d.state = .Trailers)
    (hv : ∀ h ∈ trailers, validateField h = .ok ()) (hf : ∀ h ∈ trailers, forbiddenTrailer h.name.toLower = false)
    (hd : trailers.length ≤ 256) (hc : trailers.length ≤ d.limits.headers)
    (hy : (linesText (trailers.map fieldLine) ++ CRLF).length ≤ d.limits.headBytes)
    (hi : (linesText (trailers.map fieldLine) ++ CRLF).length ≤ d.limits.lineBytes) :
    (host p).Takes d (linesText (trailers.map fieldLine) ++ CRLF) (shownTrailers trailers)
    { d with state := .End } := by
  cases hr : trailers with
  | nil =>
    refine takes_step none (fun rest => ?_) (by simp [progressed, CRLF])
    have hg : CRLF <+: linesText (map fieldLine []) ++ CRLF ++ rest := ⟨rest, rfl⟩
    rw [receiveInner, hs]
    simp only [receiveTrailers, if_pos hg]
    rfl
  | cons h =>
    rw [← hr, shownTrailers, if_neg (by simp [hr])]
    have hn : ∀ l ∈ trailers.map fieldLine, Line l := by
      intro l hl
      obtain ⟨h, hh, rfl⟩ := mem_map.mp hl
      exact fieldLine_line (hv h hh)
    have he : trailers.map fieldLine ≠ [] := by simp [hr]
    refine takes_step (some (.Trailers (trailers.map received))) (fun rest => ?_) (by simp [progressed])
    have hg : ¬ CRLF <+: linesText (trailers.map fieldLine) ++ CRLF ++ rest := by
      have hk := hn (fieldLine h) (by simp [hr])
      obtain ⟨b, l, hm⟩ := exists_cons_of_ne_nil hk.ne_nil
      rw [hr, map_cons, linesText_cons, hm]
      rintro ⟨z, hz⟩
      have hb : CR = b := (cons.inj hz).1
      exact hk.cr (by rw [hm, hb]; exact mem_cons_self ..)
    have hq : d.readTrailers p (linesText (trailers.map fieldLine) ++ CRLF) = .ok (trailers.map received) := by
      have ha : (trailers.map received).any (fun h => forbiddenTrailer h.name) = false := by
        rw [any_map, any_eq_false]
        exact fun h hh => Bool.eq_false_iff.mp (hf h hh)
      rw [readTrailers, hp.headers hv hd]
      simp only [headers_trimmed hc, Bind.bind, Except.bind, ha]
      rfl
    rw [receiveInner, hs]
    simp only [receiveTrailers, if_neg hg, block_lines hn he hy hi, take_left, hq]

end Decoder

def shown (content : Bytes) : List Event := if content = [] then [] else [.Body content]

lemma merge_bodies (chunks : List Bytes) (hc : ∀ bytes ∈ chunks, bytes ≠ [])
    (hr : ∀ bytes later, rest ≠ .Body bytes :: later) (hm : Event.merge rest = rest) :
    Event.merge (chunks.map .Body ++ rest) = shown chunks.flatten ++ rest := by
  induction chunks with
  | nil => exact hm
  | cons bytes chunks ih =>
    have hy := hc bytes (mem_cons_self ..)
    rw [map_cons, cons_append, Event.merge, ih fun bytes hb => hc bytes (mem_cons_of_mem _ hb)]
    by_cases hf : chunks.flatten = []
    · rw [flatten_cons, hf, append_nil, shown, if_pos rfl, nil_append, shown, if_neg hy]
      cases rest with
      | nil => rfl
      | cons event later =>
        cases event with
        | Body mode => exact absurd rfl (hr mode later)
        | _ => rfl
    · rw [shown, if_neg hf, flatten_cons, shown, if_neg (by simp [hy])]
      rfl

namespace Decoder

variable {p : Parser} {d d' : Decoder} {x y held : Bytes} {events later : List Event}

def decode (p : Parser) (d : Decoder) (bytes : Bytes) (closes : Bool) : List Event × Option (Decoder × Bytes) :=
  match (host p).run d bytes with
  | (events, .failed _ _) => (events, none)
  | (events, .waiting d held) =>
    if closes then
      match d.eof with
      | (d, .ok ()) => (events ++ ((host p).run d held).1, ((host p).run d held).2.outcome)
      | (_, .error _) => (events, none)
    else (events, some (d, held))

lemma decode_takes (h : (host p).Takes d x events d') (closes : Bool) :
    d.decode p (x ++ y) closes = (events ++ (d'.decode p y closes).1, (d'.decode p y closes).2) := by
  unfold decode
  rw [h y]
  match (host p).run d' y with
  | (later, .failed _ _) => rfl
  | (later, .waiting d'' held) =>
    cases closes with
    | false => rfl
    | true =>
      simp only [if_true]
      match d''.eof with
      | (_, .ok ()) => simp [append_assoc]
      | (_, .error _) => rfl

lemma decode_done (h : (host p).run d x = (events, .waiting d' [])) (hs : d'.state = .Done) (closes : Bool) :
    d.decode p x closes = (events, some (d', [])) := by
  unfold decode
  rw [h]
  cases closes with
  | false => rfl
  | true =>
    have he : d'.eof = (d', .ok ()) := by simp [eof, eofIsClean, hs]
    simp only [if_true, he, run_done hs, append_nil]
    rfl

lemma decode_eof (hs : d.state = .Eof) :
    d.decode p content true = (shown content ++ [d.ending], some ({ d with state := .Done }, [])) := by
  have hw : (host p).run d [] = ([], .waiting d []) := by
    have hp : (host p).step d [] = some (0, none, d) := step_some.mpr (by rw [receiveInner, hs]; rfl)
    rw [Stepper.run_idle hp (by simp [host, progressed, wantsStep, hs])]
    rfl
  have hr : (host p).run d content = (shown content, .waiting d []) := by
    by_cases hc : content = []
    · rw [hc, hw]
      rfl
    · have he : content.isEmpty = false := by simpa using hc
      have hp : (host p).step d content = some (content.length, some (.Body content), d) :=
        step_some.mpr (by rw [receiveInner, hs]; simp only [he]; rfl)
      rw [Stepper.run_more hp (by simp [host, progressed]), drop_length, hw, shown, if_neg hc]
      rfl
  have ho : d.eof = ({ d with state := .End }, .ok ()) := by simp [eof, eofIsClean, hs]
  have hd : (host p).run { d with state := .End } [] = ([d.ending], .waiting { d with state := .Done } []) :=
    run_end rfl
  unfold decode
  rw [hr]
  simp only [if_true, ho, hd]
  rfl

end Decoder

structure Limits.Suffice (limits : Limits) (out : Bytes) (count : ℕ) : Prop where
  headBytes : out.length ≤ limits.headBytes
  lineBytes : out.length ≤ limits.lineBytes
  headers : count ≤ limits.headers

lemma Limits.Suffice.of_append {limits : Limits} (h : limits.Suffice (x ++ y) n) (hm : m ≤ n) :
    limits.Suffice x m ∧ limits.Suffice y m := by
  obtain ⟨hh, hl, hc⟩ := h
  rw [length_append] at hh hl
  exact ⟨⟨by omega, by omega, hm.trans hc⟩, ⟨by omega, by omega, hm.trans hc⟩⟩

namespace Decoder

variable {p : Parser} {d : Decoder} {chunks : List Bytes} {trailers : List Header}

lemma shownTrailers_nil : shownTrailers [] = [] := rfl

lemma merge_tail (trailers : List Header) (d : Decoder) :
    (∀ bytes later, shownTrailers trailers ++ [d.ending] ≠ .Body bytes :: later) ∧
      Event.merge (shownTrailers trailers ++ [d.ending]) = shownTrailers trailers ++ [d.ending] := by
  unfold shownTrailers ending
  split_ifs <;> exact ⟨fun _ _ h => by simp at h, rfl⟩

def Ends (p : Parser) (d : Decoder) (rest content : Bytes) (trailers : List Header) (closes : Bool) : Prop :=
  ∃ events d', d.decode p rest closes = (events, some (d', [])) ∧ d'.state = .Done ∧
    Event.merge events = shown content ++ shownTrailers trailers ++ [d.ending]

lemma ends_bare (hs : d.state = .End) : d.Ends p [] [] [] closes :=
  ⟨[d.ending], _, decode_done (run_end hs) rfl closes, rfl, (merge_tail [] d).2⟩

lemma ends_fixed (hc : content ≠ []) (hs : d.state = .Fixed content.length) : d.Ends p content content [] closes := by
  have hr : (host p).run d content = ([.Body content] ++ [d.ending], .waiting { d with state := .Done } []) :=
    (takes_fixed hc hs).run (run_end rfl)
  refine ⟨_, _, decode_done hr rfl closes, rfl, ?_⟩
  obtain ⟨ha, hm⟩ := merge_tail [] d
  have hl := merge_bodies [content] (by simpa using hc) ha hm
  simpa [shownTrailers_nil] using hl

lemma ends_eof (hs : d.state = .Eof) : d.Ends p content content [] true := by
  refine ⟨_, _, decode_eof hs, rfl, ?_⟩
  obtain ⟨ha, hm⟩ := merge_tail [] d
  by_cases hc : content = []
  · rw [hc]
    exact hm
  · have hl := merge_bodies [content] (by simpa using hc) ha hm
    simpa [shownTrailers_nil, shown, hc] using hl

lemma ends_chunked (hp : p.Reads) (hs : d.state = .ChunkSize) (hi : ∀ bytes ∈ chunks, bytes.length < 2 ^ 64)
    (hv : ∀ h ∈ trailers, validateField h = .ok ()) (hf : ∀ h ∈ trailers, forbiddenTrailer h.name.toLower = false)
    (hl : trailers.length ≤ 256)
    (hd : d.limits.Suffice (chunks.flatMap Encoder.chunk ++
      (written 16 0 ++ CRLF ++ (linesText (trailers.map fieldLine) ++ CRLF))) trailers.length) :
    d.Ends p (chunks.flatMap Encoder.chunk ++ (written 16 0 ++ CRLF ++ (linesText (trailers.map fieldLine) ++ CRLF)))
      chunks.flatten trailers closes := by
  obtain ⟨hh, hn, hc⟩ := hd
  simp only [length_append] at hh hn
  have hg := takes_chunks (p := p) hs hi (by omega)
  have ha := takes_chunkSize (p := p) hs (n := 0) (by norm_num) (by omega)
  have hr := takes_trailers (d := { d with state := .Trailers }) hp rfl hv hf hl hc
    (by simp only [length_append]; omega) (by simp only [length_append]; omega)
  have he : (host p).run { d with state := .End } [] = ([d.ending], .waiting { d with state := .Done } []) :=
    run_end rfl
  have hu := (hg.trans (ha.trans hr)).run he
  refine ⟨_, _, decode_done hu rfl closes, rfl, ?_⟩
  obtain ⟨ht, hm⟩ := merge_tail trailers d
  have hk : ∀ bytes ∈ chunks.filter (· ≠ []), bytes ≠ [] := fun bytes hb => by simpa using (mem_filter.mp hb).2
  have hq := merge_bodies _ hk ht hm
  rw [flatten_filter_ne_nil] at hq
  simpa [append_assoc] using hq

end Decoder

end Turnloop.Http1
