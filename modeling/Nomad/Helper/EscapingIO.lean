import Mathlib

/-!
# The escaping reader

`NewReader(r, c, h)` copies `r` through a pipe, and at the start of the stream and after each
line end it reads `c c` as `c`, drops `c x` when the handler accepts `x` and keeps it otherwise.
`pipe` runs the read loop of the goroutine on fuel against a reader that answers each read with
a number of bytes of its choosing; `processBuf` is the goto scanner over one buffer, written as
its two labels, `START` and the search loop.

`Esc` reads the whole stream one byte at a time through `escStep`. When the escape character is
not itself a line end, the reader writes `Esc` of its input whatever the reads return. When it is
`'\n'`, the scanner treats the `c` it keeps of a `c c` as a line end within a buffer but not
across two, and the output depends on how the reads split the input.
-/

namespace Nomad.Helper.EscapingIO

inductive lookState where
  | sLookNewLine
  | sLookEscapeChar
  | sLookChar
  deriving DecidableEq, Repr

open lookState

/-- What the reader has done so far: the bytes written to the pipe, and the bytes it passed to
the handler. -/
structure Written where
  bytes : List UInt8
  calls : List UInt8
  deriving DecidableEq, Repr

def Written.write (w : Written) (bs : List UInt8) : Written := { w with bytes := w.bytes ++ bs }

def Written.call (w : Written) (x : UInt8) : Written := { w with calls := w.calls ++ [x] }

def isLineEnd (b : UInt8) : Prop := b = 10 ∨ b = 13

instance (b : UInt8) : Decidable (isLineEnd b) := inferInstanceAs (Decidable (_ ∨ _))

section Scanner

variable (c : UInt8) (h : UInt8 → Bool)

-- The two labels of `processBuf`, on the bytes from `i` on. Go writes `buf[wi:i]` only at the
-- points where it skips bytes or returns; every byte it passes is written in the end unless it
-- is skipped, so each byte is written here as it is passed.
mutual
/-- `START` with `s == sLookEscapeChar` and `buf[i] == c`: the escape sequence at `i`. -/
def processEscape (w : Written) : List UInt8 → Written × lookState
  | [] => (w, sLookNewLine)
  | [_] => (w, sLookChar)
  | b :: rest@(nc :: rest') =>
      -- skip one escape char; the search loop goes on from the second one
      if nc = c then processLoop w rest
      -- skip both characters
      else if h nc then processLoop (w.call nc) rest'
      else processLoop ((w.call nc).write [b, nc]) rest'

def processLoop (w : Written) : List UInt8 → Written × lookState
  | [] => (w, sLookNewLine)
  | [b] => if isLineEnd b then (w.write [b], sLookEscapeChar) else (w.write [b], sLookNewLine)
  | b :: rest@(b' :: _) =>
    if isLineEnd b then
      if b' = c then processEscape (w.write [b]) rest else processLoop (w.write [b]) rest
    else processLoop (w.write [b]) rest
end

def processBuf (w : Written) (buf : List UInt8) (s : lookState) : Written × lookState :=
  match buf with
  | b :: _ => if s = sLookEscapeChar ∧ b = c then processEscape c h w buf else processLoop c h w buf
  | [] => processLoop c h w []

/-- The answer of the underlying reader to a read of up to `m` bytes: the next `k` bytes left,
for the next size `k` it chooses, at least one and at most `m`; once `sizes` is used up it
fills the whole request. -/
def readUpTo (m : Nat) (sizes : List Nat) (stream : List UInt8) :
    List UInt8 × List Nat × List UInt8 :=
  let k := max 1 (min (sizes.headD m) m)
  (stream.take k, sizes.tail, stream.drop k)

/-- The loop of `pipe()`, for at most `fuel` reads into `rb`. A read returns no bytes only at
the end of the stream, and then returns `io.EOF`. -/
def pipe : Nat → Written → lookState → List Nat → List UInt8 → Option Written
  | 0, _, _, _, _ => none
  | fuel + 1, bw, state, sizes, stream =>
    match stream with
    | [] => some (if state = sLookChar then bw.write [c] else bw)
    | _ :: _ =>
      let (rb, sizes, stream) := readUpTo 4096 sizes stream
      let (bw, state) := processBuf c h bw rb state
      if state = sLookChar then
        -- terminated with `c`: read one more character
        let (rb, sizes, stream) := readUpTo 1 sizes stream
        match rb with
        | [] => some (bw.write [c])
        | x :: _ =>
          let bw := if x = c then bw.write [x] else if h x then bw.call x
            else (bw.call x).write [c, x]
          pipe fuel bw sLookNewLine sizes stream
      else pipe fuel bw state sizes stream

-- ---------------------------------------------------------------------------
-- The specification
-- ---------------------------------------------------------------------------

/-- One byte of the escaping: `sLookEscapeChar` at the start of the stream and after a line
end, `sLookChar` right after an escape character there. -/
def escStep : Written × lookState → UInt8 → Written × lookState
  | (w, sLookNewLine), b =>
    (w.write [b], if isLineEnd b then sLookEscapeChar else sLookNewLine)
  | (w, sLookEscapeChar), b =>
    if b = c then (w, sLookChar)
    else (w.write [b], if isLineEnd b then sLookEscapeChar else sLookNewLine)
  | (w, sLookChar), x =>
    if x = c then (w.write [c], sLookNewLine)
    else if h x then (w.call x, sLookNewLine)
    else ((w.call x).write [c, x], sLookNewLine)

def escFinish : Written × lookState → Written
  | (w, sLookChar) => w.write [c]
  | (w, _) => w

/-- The escaped stream and the handler's calls, read in one pass. -/
def Esc (input : List UInt8) : Written :=
  escFinish c (input.foldl (escStep c h) (⟨[], []⟩, sLookEscapeChar))

end Scanner

/-- With `c = '\n'` and a handler that accepts `z`: read at once, `\n\n\nz` comes out as `\n` and
the handler sees `z`; read a byte at a time, it comes out as `\n\nz`, which is `Esc`, and the
handler is not called. -/
theorem reader_output_depends_on_reads :
    pipe 10 (· == 122) 5 ⟨[], []⟩ sLookEscapeChar [] [10, 10, 10, 122] = some ⟨[10], [122]⟩ ∧
    pipe 10 (· == 122) 5 ⟨[], []⟩ sLookEscapeChar [1, 1, 1, 1] [10, 10, 10, 122] =
      some ⟨[10, 10, 122], []⟩ ∧
    Esc 10 (· == 122) [10, 10, 10, 122] = ⟨[10, 10, 122], []⟩ := by
  decide +kernel

-- ---------------------------------------------------------------------------
-- The scanner against the specification
-- ---------------------------------------------------------------------------

section Refinement

variable {c : UInt8} (h : UInt8 → Bool)

def PlainAt (c : UInt8) (s : lookState) (buf : List UInt8) : Prop :=
  s = sLookNewLine ∨ (s = sLookEscapeChar ∧ buf ≠ [] ∧ buf.head? ≠ some c)

theorem escStep_plain {s : lookState} {b : UInt8} (w : Written)
    (hs : s = sLookNewLine ∨ (s = sLookEscapeChar ∧ b ≠ c)) :
    escStep c h (w, s) b =
      (w.write [b], if isLineEnd b then sLookEscapeChar else sLookNewLine) := by
  rcases hs with rfl | ⟨rfl, hb⟩
  · rfl
  · simp [escStep, hb]

theorem plain_of_plainAt {s : lookState} {b : UInt8} {rest : List UInt8}
    (hs : PlainAt c s (b :: rest)) : s = sLookNewLine ∨ (s = sLookEscapeChar ∧ b ≠ c) := by
  rcases hs with hs | ⟨hs, _, hb⟩
  · exact .inl hs
  · exact .inr ⟨hs, fun hbc => hb (by rw [hbc]; rfl)⟩

theorem escFinish_of_ne {s : lookState} (hs : s ≠ sLookChar) (w : Written) :
    escFinish c (w, s) = w := by
  cases s with
  | sLookNewLine => rfl
  | sLookEscapeChar => rfl
  | sLookChar => exact absurd rfl hs

theorem processLoop_nil_of_plainAt {s : lookState} (hs : PlainAt c s []) (w : Written) :
    processLoop c h w [] = ([] : List UInt8).foldl (escStep c h) (w, s) := by
  rcases hs with rfl | ⟨_, hne, _⟩
  · rw [processLoop, List.foldl_nil]
  · exact absurd rfl hne

theorem escStep_sLookChar (w : Written) (x : UInt8) :
    escStep c h (w, sLookChar) x =
      ((if x = c then w.write [x] else if h x then w.call x else (w.call x).write [c, x]),
        sLookNewLine) := by
  by_cases hx : x = c
  · subst hx
    simp [escStep]
  · by_cases hh : h x = true <;> simp [escStep, hx, hh]

variable (hc : ¬ isLineEnd c)
include hc

/-- Both labels of the scanner run `escStep` over the bytes they pass, when `c` is not a line
end. The induction is on a bound of the buffer's length, since the escape sequence passes two
bytes before it goes back to the loop. -/
theorem scan_eq_foldl (n : Nat) : ∀ buf : List UInt8, buf.length ≤ n →
    (∀ w s, PlainAt c s buf → processLoop c h w buf = buf.foldl (escStep c h) (w, s)) ∧
    (∀ w, buf.head? = some c →
      processEscape c h w buf = buf.foldl (escStep c h) (w, sLookEscapeChar)) := by
  induction n with
  | zero =>
    intro buf hlen
    rw [List.length_eq_zero_iff.mp (Nat.le_zero.mp hlen)]
    exact ⟨fun w s hs => processLoop_nil_of_plainAt h hs w, fun w hb => nomatch hb⟩
  | succ n ih =>
    intro buf hlen
    refine ⟨fun w s hs => ?_, fun w hb => ?_⟩
    · rcases buf with _ | ⟨b, _ | ⟨b', rest⟩⟩
      · exact processLoop_nil_of_plainAt h hs w
      · rw [List.foldl_cons, List.foldl_nil, escStep_plain h w (plain_of_plainAt hs)]
        by_cases hb : isLineEnd b <;> simp [processLoop, hb]
      · have ih' := ih (b' :: rest) (by simp only [List.length_cons] at hlen ⊢; omega)
        rw [List.foldl_cons, escStep_plain h w (plain_of_plainAt hs)]
        by_cases hb : isLineEnd b
        · by_cases hb' : b' = c
          · -- a line end followed by `c` goes back to `START`
            rw [processLoop, if_pos hb, if_pos hb', if_pos hb]
            exact ih'.2 _ (by rw [hb']; rfl)
          · rw [processLoop, if_pos hb, if_neg hb', if_pos hb]
            exact ih'.1 _ _ (.inr ⟨rfl, List.cons_ne_nil _ _, fun he => hb' (by simpa using he)⟩)
        · rw [processLoop, if_neg hb, if_neg hb]
          exact ih'.1 _ _ (.inl rfl)
    · rcases buf with _ | ⟨b, _ | ⟨nc, rest⟩⟩
      · exact nomatch hb
      · obtain rfl : b = c := by simpa using hb
        simp [processEscape, escStep]
      · obtain rfl : b = c := by simpa using hb
        have hrest : rest.length ≤ n := by simp only [List.length_cons] at hlen; omega
        have hescape : escStep b h (w, sLookEscapeChar) b = (w, sLookChar) := by simp [escStep]
        rw [List.foldl_cons, List.foldl_cons, hescape]
        by_cases hnc : nc = b
        · -- the kept escape character is a plain byte, since `c` is not a line end
          subst hnc
          have hloop := (ih (nc :: rest) (by simp only [List.length_cons] at hlen ⊢; omega)).1 w
            sLookNewLine (.inl rfl)
          rw [processEscape, if_pos rfl, hloop, List.foldl_cons, escStep_plain h w (.inl rfl),
            if_neg hc]
          simp [escStep]
        · by_cases hh : h nc = true
          · rw [processEscape, if_neg hnc, if_pos hh, (ih rest hrest).1 _ sLookNewLine (.inl rfl)]
            simp [escStep, hnc, hh]
          · rw [processEscape, if_neg hnc, if_neg hh, (ih rest hrest).1 _ sLookNewLine (.inl rfl)]
            simp [escStep, hnc, hh]

theorem processBuf_eq_foldl {s : lookState} (hs : s ≠ sLookChar) {buf : List UInt8}
    (hbuf : buf ≠ []) (w : Written) :
    processBuf c h w buf s = buf.foldl (escStep c h) (w, s) := by
  obtain ⟨b, rest, rfl⟩ := List.exists_cons_of_ne_nil hbuf
  have hscan := scan_eq_foldl h hc (b :: rest).length (b :: rest) (Nat.le_refl _)
  by_cases hstart : s = sLookEscapeChar ∧ b = c
  · obtain ⟨rfl, rfl⟩ := hstart
    rw [processBuf, if_pos ⟨rfl, rfl⟩]
    exact hscan.2 w rfl
  · rw [processBuf, if_neg hstart]
    refine hscan.1 w s ?_
    cases s with
    | sLookNewLine => exact .inl rfl
    | sLookEscapeChar =>
      exact .inr ⟨rfl, List.cons_ne_nil _ _, fun hb => hstart ⟨rfl, by simpa using hb⟩⟩
    | sLookChar => exact absurd rfl hs

/-- Each turn of the read loop passes one read's bytes through `escStep`, so the loop writes
`escStep` over the whole stream. The induction is on the fuel, with the state of the loop and
what is left of the stream generalized; every turn reads at least one byte. -/
theorem pipe_eq_foldl (fuel : Nat) : ∀ (bw : Written) (state : lookState) (sizes : List Nat)
    (stream : List UInt8), state ≠ sLookChar → stream.length < fuel →
    pipe c h fuel bw state sizes stream =
      some (escFinish c (stream.foldl (escStep c h) (bw, state))) := by
  induction fuel with
  | zero => intro _ _ _ _ _ hlen; omega
  | succ fuel ih =>
    intro bw state sizes stream hs hlen
    rcases stream with _ | ⟨x, xs⟩
    · simp [pipe, hs, escFinish_of_ne hs]
    · set k := max 1 (min (sizes.headD 4096) 4096) with hk
      have hk1 : 1 ≤ k := Nat.le_max_left _ _
      have hrb : (x :: xs).take k ≠ [] := by
        rw [ne_eq, List.take_eq_nil_iff, not_or]
        exact ⟨by omega, List.cons_ne_nil _ _⟩
      have hdrop : ((x :: xs).drop k).length < fuel := by
        simp only [List.length_drop, List.length_cons] at hlen ⊢
        omega
      have hsplit := List.take_append_drop k (x :: xs)
      simp only [pipe, readUpTo, ← hk]
      generalize (x :: xs).take k = rb at hrb hsplit ⊢
      generalize (x :: xs).drop k = rest at hdrop hsplit ⊢
      -- the bytes of this read, then the rest of the stream
      rw [processBuf_eq_foldl h hc hs hrb, ← hsplit, List.foldl_append]
      rcases rb.foldl (escStep c h) (bw, state) with ⟨bw', state'⟩
      by_cases hs' : state' = sLookChar
      · subst hs'
        rcases rest with _ | ⟨y, ys⟩
        · simp [escFinish]
        · have hone : max 1 (min (sizes.tail.headD 1) 1) = 1 := by omega
          simp only [if_true, hone, List.take_succ_cons, List.take_zero, List.drop_succ_cons,
            List.drop_zero, List.foldl_cons, escStep_sLookChar]
          exact ih _ _ _ _ (by simp) (by simp only [List.length_cons] at hdrop; omega)
      · simp only [hs', if_false]
        exact ih _ _ _ _ hs' hdrop

/-- When the escape character is not a line end, the reader writes `Esc` of its input and
calls the handler as `Esc` does, however the underlying reader splits its reads. -/
theorem reader_eq_esc (input : List UInt8) (sizes : List Nat) :
    pipe c h (input.length + 1) ⟨[], []⟩ sLookEscapeChar sizes input = some (Esc c h input) :=
  pipe_eq_foldl h hc _ _ _ _ _ (by simp) (Nat.lt_succ_self _)

end Refinement

theorem reader_eq_esc_tilde :
    ¬ isLineEnd 126 ∧
      pipe 126 (· == 46) 7 ⟨[], []⟩ sLookEscapeChar [2, 1, 3] [97, 10, 126, 46, 126, 126] =
        some (Esc 126 (· == 46) [97, 10, 126, 46, 126, 126]) :=
  have hc : ¬ isLineEnd 126 := by decide
  ⟨hc, reader_eq_esc (· == 46) hc [97, 10, 126, 46, 126, 126] [2, 1, 3]⟩

end Nomad.Helper.EscapingIO
