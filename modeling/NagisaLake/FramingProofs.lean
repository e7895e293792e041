import NagisaLake.OctetsProofs
import NagisaLake.StreamProofs

/-! # Framing — batched writes, chunked reads

Both directions of an RPC connection share one writer and one reader.
`write_frames` takes queued frames, as many as are there, into one batch and
writes it; a large body goes out by itself.  `read_frames` keeps a buffer,
takes every complete frame off its front, and reads again.

Neither the batches nor the reads can be seen on the other side
(`readFrames_writeFrames`).  What the reader does with a stream that nobody
has written is decided by the parser of the payloads: it stops with an error
behind the longest valid prefix unless a payload stands there that parses
although no frame is written that way (`stops_iff`). -/

namespace Framing

open Octets Streams List Except

abbrev Bytes := List UInt8

/-! ## Errors and settings -/

/-- `ConfigError`, as far as the frame settings go. -/
inductive ConfigError where
  | zero (field : String)
  | invalidFrameLimit (limit : Nat)
  deriving DecidableEq, Repr

/-- `ConnectionErrorKind`. -/
inductive ConnectionErrorKind where
  | closed
  | io
  | frameTooLarge
  | protocol
  | runtime
  deriving DecidableEq, Repr

/-- `ConnectionError`. -/
structure ConnectionError where
  kind : ConnectionErrorKind
  detail : String
  deriving DecidableEq, Repr

namespace ConnectionError

/-- `ConnectionError::io`: of an I/O error that is an early end of the stream or
    not, and its text. -/
def io (unexpectedEof : Bool) (text : String) : ConnectionError :=
  ⟨if unexpectedEof then .closed else .io, text⟩

def frameTooLarge (actual limit : Nat) : ConnectionError :=
  ⟨.frameTooLarge, s!"frame is {actual} bytes, limit is {limit}"⟩

def protocol (detail : String) : ConnectionError := ⟨.protocol, detail⟩

def closed (detail : String) : ConnectionError := ⟨.closed, detail⟩

def runtime (detail : String) : ConnectionError := ⟨.runtime, detail⟩

end ConnectionError

/-- `FrameConfig`. -/
structure FrameConfig where
  maxFrameBytes : Nat := 8 * 1024 * 1024
  initialBufferBytes : Nat := 16 * 1024
  readChunkBytes : Nat := 32 * 1024
  maxBatchFrames : Nat := 64
  maxBatchBytes : Nat := 256 * 1024
  deriving DecidableEq, Repr

/-- `u32::MAX`. -/
def u32Max : Nat := 4294967295

/-- `FrameConfig::validate`. -/
def FrameConfig.validate (cfg : FrameConfig) : Except ConfigError Unit :=
  if cfg.maxFrameBytes = 0 ∨ u32Max < cfg.maxFrameBytes then
    .error (.invalidFrameLimit cfg.maxFrameBytes)
  else if cfg.initialBufferBytes = 0 then
    .error (.zero "initial_buffer_bytes")
  else if cfg.readChunkBytes = 0 then
    .error (.zero "read_chunk_bytes")
  else if cfg.maxBatchFrames = 0 then
    .error (.zero "max_batch_frames")
  else if cfg.maxBatchBytes = 0 then
    .error (.zero "max_batch_bytes")
  else .ok ()

/-- A valid limit can be written in the length field. -/
theorem FrameConfig.limit_of_validate {cfg : FrameConfig}
    (h : cfg.validate = .ok ()) : cfg.maxFrameBytes ≤ u32Max := by
  rw [validate] at h
  split at h
  · cases h
  · next hlimit => exact Nat.le_of_not_lt fun hlt => hlimit (.inr hlt)

/-- `FrameError`. -/
inductive FrameError where
  | truncated
  | unknownKind (kind : UInt8)
  | unknownStatus (status : UInt8)
  deriving DecidableEq, Repr

/-- `FrameError::detail`. -/
def FrameError.detail : FrameError → String
  | .truncated => "frame payload is shorter than its header"
  | .unknownKind _ => "frame has an unknown kind tag"
  | .unknownStatus _ => "response frame has an unknown status code"

/-! ## Frames -/

/-- `Frame`: what the writer needs of a frame.  `payload_len` counts what
    `split_header` gives it to write. -/
class Frame (F : Type) where
  payloadLen : F → Nat
  header : F → Bytes
  body : F → Bytes
  payloadLen_eq : ∀ f, payloadLen f = (header f).length + (body f).length

/-- `ParseFrame`: what the reader needs of a frame. -/
class ParseFrame (F : Type) where
  parse : Bytes → Except FrameError F

open Framing.Frame ParseFrame

/-- What stands behind the length field. -/
def payload {F : Type} [Frame F] (f : F) : Bytes := header f ++ body f

/-- A frame on the wire. -/
def encode {F : Type} [Frame F] (f : F) : Bytes :=
  toBE 4 (payloadLen f) ++ payload f

/-- The reader's parser takes back what the writer's layout gives. -/
class LawfulFrame (F : Type) extends Frame F, ParseFrame F where
  parse_payload : ∀ f : F, parse (header f ++ body f) = .ok f

/-! ## Reading -/

/-- `take_frame`: the next payload and what is behind it, if the buffer holds all of it. -/
def takeFrame (maxFrameBytes : Nat) (buffer : Bytes) :
    Except ConnectionError (Option (Bytes × Bytes)) :=
  if buffer.length < 4 then .ok none
  else
    let payloadLen := ofBE (buffer.take 4)
    if maxFrameBytes < payloadLen then
      .error (.frameTooLarge payloadLen maxFrameBytes)
    else if buffer.length < 4 + payloadLen then .ok none
    else .ok (some ((buffer.drop 4).take payloadLen,
      (buffer.drop 4).drop payloadLen))

/-- `ReadEvent`. -/
inductive ReadEvent (F : Type) where
  | frame (f : F)
  | closed
  | failed (e : ConnectionError)

/-- What `read_buf` gives: bytes, where none mean the end of the stream, or an I/O error. -/
inductive Read where
  | bytes (b : Bytes)
  | failed (unexpectedEof : Bool) (text : String)

section Take

variable {max : Nat} {b c p r : Bytes} {e : ConnectionError}

/-- Where the complete frame on the front of a buffer comes from. -/
theorem takeFrame_eq_some (h : takeFrame max b = .ok (some (p, r))) :
    b = toBE 4 p.length ++ p ++ r ∧ p.length ≤ max ∧ ofBE (toBE 4 p.length) = p.length := by
  rw [takeFrame] at h
  split at h
  · cases h
  next hlen =>
  simp only at h
  split at h
  · cases h
  next hmax =>
  split at h
  · cases h
  next hall =>
  obtain ⟨rfl, rfl⟩ :=
    Prod.mk.inj (Option.some.inj (ok.inj h))
  have hp : ((b.drop 4).take (ofBE (b.take 4))).length = ofBE (b.take 4) := by
    rw [length_take, length_drop]
    omega
  have hhead : toBE 4 (ofBE (b.take 4)) = b.take 4 := by
    have hfour : (b.take 4).length = 4 := by
      rw [length_take]
      omega
    have := toBE_ofBE (b.take 4)
    rwa [hfour] at this
  rw [hp, hhead, append_assoc, take_append_drop, take_append_drop]
  exact ⟨rfl, Nat.le_of_not_lt hmax, rfl⟩

/-- A complete frame on the front of a buffer is taken. -/
theorem takeFrame_frame (hnum : ofBE (toBE 4 p.length) = p.length) (hp : p.length ≤ max) :
    takeFrame max (toBE 4 p.length ++ p ++ r) = .ok (some (p, r)) := by
  have hfour : (toBE 4 p.length).length = 4 := length_toBE 4 p.length
  have htake : (toBE 4 p.length ++ p ++ r).take 4 = toBE 4 p.length := by
    rw [append_assoc, take_left' hfour]
  have hdrop : (toBE 4 p.length ++ p ++ r).drop 4 = p ++ r := by
    rw [append_assoc, drop_left' hfour]
  have hlen : (toBE 4 p.length ++ p ++ r).length = 4 + p.length + r.length := by
    rw [length_append, length_append, hfour]
  rw [takeFrame, htake, hdrop, hnum, hlen, if_neg (by omega)]
  rw [if_neg (by omega), if_neg (by omega), take_left, drop_left]

theorem takeFrame_append_some (h : takeFrame max b = .ok (some (p, r)))
    (c : Bytes) : takeFrame max (b ++ c) = .ok (some (p, r ++ c)) := by
  obtain ⟨rfl, hp, hnum⟩ := takeFrame_eq_some h
  rw [append_assoc]
  exact takeFrame_frame hnum hp

theorem takeFrame_append_error (h : takeFrame max b = .error e)
    (c : Bytes) : takeFrame max (b ++ c) = .error e := by
  rw [takeFrame] at h ⊢
  split at h
  · cases h
  next hlen =>
  simp only at h
  split at h
  · next hmax =>
    obtain rfl := error.inj h
    rw [take_append_of_le_length (Nat.le_of_not_lt hlen), length_append, if_neg (by omega)]
    rw [if_pos hmax]
  · split at h
    · cases h
    · cases h

end Take

/-- One turn of the reader's inner loop: take a payload, parse it. -/
def nextFrame (F : Type) [ParseFrame F] (maxFrameBytes : Nat)
    (buffer : Bytes) : Except ConnectionError (Option (F × Bytes)) :=
  match takeFrame maxFrameBytes buffer with
  | .error e => .error e
  | .ok none => .ok none
  | .ok (some (payload, rest)) =>
    match parse payload with
    | .ok f => .ok (some (f, rest))
    | .error e => .error (.protocol e.detail)

theorem nextFrame_eq_some {F : Type} [ParseFrame F] {max : Nat} {b r : Bytes}
    {f : F} (h : nextFrame F max b = .ok (some (f, r))) :
    ∃ p, takeFrame max b = .ok (some (p, r)) ∧ parse p = .ok f := by
  rw [nextFrame] at h
  split at h
  · cases h
  · cases h
  next p rest htake =>
  split at h
  · next g hparse =>
    obtain ⟨rfl, rfl⟩ :=
      Prod.mk.inj (Option.some.inj (ok.inj h))
    exact ⟨p, htake, hparse⟩
  · cases h

/-- The reader's loop as an incremental parser. -/
def frameParser (F : Type) [ParseFrame F] (maxFrameBytes : Nat) :
    Parser UInt8 F ConnectionError where
  take := nextFrame F maxFrameBytes
  shrinks := by
    intro b f r h
    obtain ⟨p, htake, -⟩ := nextFrame_eq_some h
    rw [(takeFrame_eq_some htake).1, List.length_append, List.length_append, length_toBE]
    omega
  taken_append := by
    intro b f r h c
    obtain ⟨p, htake, hparse⟩ := nextFrame_eq_some h
    rw [nextFrame, takeFrame_append_some htake c]
    simp only [hparse]
  failed_append := by
    intro b e h c
    rw [nextFrame] at h ⊢
    split at h
    · next e' htake => rw [takeFrame_append_error htake c, ← h]
    · cases h
    next p rest htake =>
    rw [takeFrame_append_some htake c]
    split at h
    · cases h
    · next e' hparse => simp only [hparse, ← h]

/-- The event that ends the stream when the peer has closed it. -/
def atEnd {F : Type} (buffer : Bytes) : ReadEvent F :=
  if buffer.isEmpty then .closed
  else .failed (.closed "stream ended inside a frame")

/-- `read_frames`: what it sends, read by read.  The last read of the list is
    followed by the end of the stream. -/
def readFrames (F : Type) [ParseFrame F] (cfg : FrameConfig)
    (buffer : Bytes) : List Read → List (ReadEvent F)
  | [] =>
    match (frameParser F cfg.maxFrameBytes).drain buffer with
    | (fs, .error e) => fs.map .frame ++ [.failed e]
    | (fs, .ok rest) => fs.map .frame ++ [atEnd rest]
  | read :: reads =>
    match (frameParser F cfg.maxFrameBytes).drain buffer with
    | (fs, .error e) => fs.map .frame ++ [.failed e]
    | (fs, .ok rest) => fs.map .frame ++
        match read with
        | .bytes [] => [atEnd rest]
        | .bytes chunk => readFrames F cfg (rest ++ chunk) reads
        | .failed unexpectedEof text => [.failed (.io unexpectedEof text)]

section Reading

variable {F : Type} {cfg : FrameConfig}

/-- The events of a stream that was drained to its end. -/
def deliver : List F × Except ConnectionError Bytes → List (ReadEvent F)
  | (fs, .error e) => fs.map .frame ++ [.failed e]
  | (fs, .ok rest) => fs.map .frame ++ [atEnd rest]

theorem deliver_append (fs gs : List F) (z : Except ConnectionError Bytes) :
    deliver (fs ++ gs, z) = fs.map .frame ++ deliver (gs, z) := by
  cases z <;> simp [deliver]

/-- The read loop is the library's: its events are those of the chunks fed. -/
theorem readFrames_eq_feed [ParseFrame F] (cs : List Bytes) (hcs : ∀ c ∈ cs, c ≠ []) (b : Bytes) :
    readFrames F cfg b (cs.map .bytes) = deliver ((frameParser F cfg.maxFrameBytes).feed b cs) := by
  induction cs generalizing b with
  | nil =>
    rw [map_nil, readFrames, Parser.feed]
    split <;> simp_all [deliver]
  | cons c cs ih =>
    have hne : c ≠ [] := hcs c mem_cons_self
    have hrest : ∀ d ∈ cs, d ≠ [] := fun d hd =>
      hcs d (mem_cons_of_mem c hd)
    rw [map_cons, readFrames, Parser.feed]
    cases hd : (frameParser F cfg.maxFrameBytes).drain b with
    | mk fs z =>
      cases z with
      | error e => simp [deliver]
      | ok rest =>
        simp only [deliver_append]
        cases c with
        | nil => exact absurd rfl hne
        | cons x xs => exact congrArg _ (ih hrest _)

/-- **THE READS CANNOT BE SEEN**: only the bytes matter. -/
theorem readFrames_eq [ParseFrame F] {cs : List Bytes} (hcs : ∀ c ∈ cs, c ≠ []) :
    readFrames F cfg [] (cs.map .bytes)
      = deliver ((frameParser F cfg.maxFrameBytes).drain cs.flatten) := by
  rw [readFrames_eq_feed cs hcs, Parser.feed_eq_drain, nil_append]

/-- The frames of a stream that fit the limit. -/
def Fits [Frame F] (cfg : FrameConfig) (f : F) : Prop :=
  payloadLen f ≤ cfg.maxFrameBytes

theorem length_payload [Frame F] (f : F) : (payload f).length = payloadLen f := by
  rw [payload, length_append, payloadLen_eq]

theorem encode_eq [Frame F] (f : F) : encode f = toBE 4 (payload f).length ++ payload f := by
  rw [encode, length_payload]

/-- A payload behind its length is taken if it parses. -/
theorem nextFrame_payload [ParseFrame F] (hmax : cfg.maxFrameBytes ≤ u32Max)
    {p r : Bytes} (hp : p.length ≤ cfg.maxFrameBytes) {f : F}
    (hparse : parse p = .ok f) :
    nextFrame F cfg.maxFrameBytes (toBE 4 p.length ++ p ++ r) = .ok (some (f, r)) := by
  have hnum : ofBE (toBE 4 p.length) = p.length := by
    apply ofBE_toBE
    have : u32Max < 256 ^ 4 := by decide
    omega
  rw [nextFrame, takeFrame_frame hnum hp]
  simp only [hparse]

/-- What was written is taken back. -/
theorem takesBack [LawfulFrame F] (hmax : cfg.maxFrameBytes ≤ u32Max) :
    TakesBack (frameParser F cfg.maxFrameBytes) encode (Fits cfg) := by
  intro f hf c
  rw [encode_eq]
  rw [Fits, ← length_payload] at hf
  exact nextFrame_payload hmax hf (LawfulFrame.parse_payload f)

end Reading

/-! ## Writing -/

section Writing

variable {F : Type} [Frame F] {cfg : FrameConfig}

/-- A frame in the queue, and whether it is already there when the writer asks
    for it without waiting (`try_recv`). -/
structure Queued (F : Type) where
  frame : F
  ready : Bool

/-- The bytes the transport was given, and the batch that grows. -/
structure Writer where
  written : Bytes
  batch : Bytes
  deriving DecidableEq

/-- The frame joins the batch.  A large body is written from its own
    allocation, behind the batch so far. -/
def Writer.put (cfg : FrameConfig) (w : Writer) (f : F) : Writer :=
  let batch := w.batch ++ toBE 4 (payloadLen f) ++ header f
  if cfg.maxBatchBytes ≤ (body f).length then
    { written := w.written ++ batch ++ body f, batch := [] }
  else { w with batch := batch ++ body f }

/-- The batch is written. -/
def Writer.flush (w : Writer) : Writer :=
  { written := w.written ++ w.batch, batch := [] }

/-- The inner loop of `write_frames`: the frame it has taken and what is queued
    behind it; it leaves what it did not take. -/
def writeBatch (cfg : FrameConfig) (w : Writer) (frameCount : Nat) (f : F)
    (frames : List (Queued F)) :
    Writer × Except ConnectionError (List (Queued F)) :=
  if cfg.maxFrameBytes < payloadLen f then
    (w, .error (.frameTooLarge (payloadLen f) cfg.maxFrameBytes))
  else
    let w := w.put cfg f
    if cfg.maxBatchFrames ≤ frameCount + 1
        ∨ cfg.maxBatchBytes ≤ w.batch.length then
      (w, .ok frames)
    else
      match frames with
      | ⟨next, true⟩ :: rest => writeBatch cfg w (frameCount + 1) next rest
      | frames => (w, .ok frames)

/-- Everything the writer has been given so far. -/
def Writer.sent (w : Writer) : Bytes := w.written ++ w.batch

theorem sent_put (w : Writer) (f : F) : (w.put cfg f).sent = w.sent ++ encode f := by
  simp only [Writer.put, Writer.sent, encode, payload]
  split <;> simp

/-- A batch takes frames off the queue in order. -/
theorem writeBatch_ok (frames : List (Queued F)) (w : Writer) (n : Nat)
    (f : F) (hf : Fits cfg f) (hfits : ∀ q ∈ frames, Fits cfg q.frame) :
    ∃ w' taken rest, writeBatch cfg w n f frames = (w', .ok rest)
      ∧ frames.map Queued.frame = taken ++ rest.map Queued.frame
      ∧ w'.sent = w.sent ++ encodeAll encode (f :: taken) := by
  fun_induction writeBatch cfg w n f frames with
  | case1 frames w n f htoo => exact absurd htoo (Nat.not_lt.mpr hf)
  | case2 frames w n f hfit w' hfull =>
    refine ⟨w', [], frames, rfl, rfl, ?_⟩
    rw [encodeAll_cons, sent_put]
    simp [encodeAll]
  | case3 w n f hfit w' hfull next rest ih =>
    -- the next frame was already queued: it joins the same batch
    have hnext := forall_mem_cons.mp hfits
    obtain ⟨w'', taken, rest', heq, hmap, hsent⟩ := ih hnext.1 hnext.2
    refine ⟨w'', next :: taken, rest', heq, ?_, ?_⟩
    · rw [map_cons, hmap, cons_append]
    · rw [hsent, sent_put, encodeAll_cons (a := f), append_assoc]
  | case4 w n f hfit w' hfull frames hnone =>
    refine ⟨w', [], frames, rfl, rfl, ?_⟩
    rw [encodeAll_cons, sent_put]
    simp [encodeAll]

theorem length_writeBatch {frames rest : List (Queued F)} {w w' : Writer}
    {n : Nat} {f : F} (h : writeBatch cfg w n f frames = (w', .ok rest)) :
    rest.length ≤ frames.length := by
  fun_induction writeBatch cfg w n f frames with
  | case1 => cases (Prod.mk.inj h).2
  | case2 => rw [ok.inj (Prod.mk.inj h).2]
  | case3 w n f hfit u hfull next more ih =>
    exact Nat.le_succ_of_le (ih h)
  | case4 => rw [ok.inj (Prod.mk.inj h).2]

/-- `write_frames`, until the queue closes. -/
def writeFrames (cfg : FrameConfig) (w : Writer) (frames : List (Queued F)) :
    Writer × Except ConnectionError Unit :=
  match frames with
  | [] => (w, .ok ())
  | first :: frames =>
    match h : writeBatch cfg w 0 first.frame frames with
    | (w', .error e) => (w', .error e)
    | (w', .ok rest) =>
      have := length_writeBatch h
      writeFrames cfg w'.flush rest
termination_by frames.length

theorem writeFrames_cons {first : Queued F} {frames rest : List (Queued F)}
    {w w' : Writer}
    (h : writeBatch cfg w 0 first.frame frames = (w', .ok rest)) :
    writeFrames cfg w (first :: frames) = writeFrames cfg w'.flush rest := by
  rw [writeFrames]
  split
  · next h' => cases (Prod.mk.inj (h.symm.trans h')).2
  next h' =>
  obtain ⟨rfl, hrest⟩ := Prod.mk.inj (h.symm.trans h')
  rw [ok.inj hrest]

/-- **THE BATCHES CANNOT BE SEEN**: frames that fit are written one behind the
    other, however they were grouped. -/
theorem writeFrames_ok (frames : List (Queued F)) (w : Writer)
    (hbatch : w.batch = []) (hfits : ∀ q ∈ frames, Fits cfg q.frame) :
    writeFrames cfg w frames
      = (⟨w.written ++ encodeAll encode (frames.map Queued.frame), []⟩, .ok ()) := by
  match frames with
  | [] =>
    rw [writeFrames, ← hbatch]
    simp [encodeAll]
  | first :: frames =>
    have hall := forall_mem_cons.mp hfits
    obtain ⟨w', taken, rest, heq, hmap, hsent⟩ :=
      writeBatch_ok frames w 0 first.frame hall.1 hall.2
    have := length_writeBatch heq
    have hrest : ∀ q ∈ rest, Fits cfg q.frame := by
      intro q hq
      have hmem : q.frame ∈ frames.map Queued.frame := by
        rw [hmap]
        exact mem_append_right taken (mem_map_of_mem hq)
      obtain ⟨q', hq', heq'⟩ := mem_map.mp hmem
      rw [← heq']
      exact hall.2 q' hq'
    have hnext := writeFrames_ok rest w'.flush rfl hrest
    rw [writeFrames_cons heq, hnext, map_cons, hmap]
    have hbytes : w'.flush.written = w.written ++ encodeAll encode (first.frame :: taken) := by
      rw [Writer.sent, Writer.sent, hbatch, append_nil] at hsent
      exact hsent
    rw [hbytes, ← cons_append, encodeAll_append, append_assoc]
termination_by frames.length

end Writing

/-! ## Both sides -/

section Connection

variable {F : Type} [LawfulFrame F] {cfg : FrameConfig}

/-- Frames that fit are written without an error, however they are batched, and
    read in order up to a clean end, however the bytes arrive. -/
def RoundTrip (F : Type) [LawfulFrame F] (cfg : FrameConfig) : Prop :=
  ∀ frames : List (Queued F), (∀ q ∈ frames, Fits cfg q.frame) →
    ∃ w, writeFrames cfg ⟨[], []⟩ frames = (w, .ok ())
      ∧ ∀ cs : List Bytes, (∀ c ∈ cs, c ≠ []) → cs.flatten = w.written →
        readFrames F cfg [] (cs.map .bytes) = frames.map (fun q => .frame q.frame) ++ [.closed]

/-- What was queued is what is read, whatever the batches and the reads. -/
theorem readFrames_writeFrames (hmax : cfg.maxFrameBytes ≤ u32Max) : RoundTrip F cfg := by
  intro frames hfits
  refine ⟨_, writeFrames_ok frames _ rfl hfits, ?_⟩
  intro cs hcs hbytes
  have hall : ∀ f ∈ frames.map Queued.frame, Fits cfg f := by
    intro f hf
    obtain ⟨q, hq, rfl⟩ := mem_map.mp hf
    exact hfits q hq
  have hend : (frameParser F cfg.maxFrameBytes).drain [] = ([], .ok []) :=
    Parser.drain_of_none rfl
  rw [readFrames_eq hcs, hbytes, nil_append,
    ← append_nil (encodeAll _ _), drain_encodeAll (takesBack hmax) hall,
    hend, deliver_append, map_map]
  rfl

/-- The reader delivers the longest valid prefix and then an error. -/
def Stops (cfg : FrameConfig) (b : Bytes) (events : List (ReadEvent F)) :
    Prop :=
  ∃ fs e, Longest encode (Fits cfg) b fs ∧ events = fs.map .frame ++ [.failed e]

/-- Behind a valid prefix stands a payload that parses although the frame it
    parses to is written otherwise. -/
def Loose (F : Type) [LawfulFrame F] (cfg : FrameConfig) (b : Bytes) : Prop :=
  ∃ (fs : List F) (p r : Bytes) (f : F), (∀ f ∈ fs, Fits cfg f)
    ∧ b = encodeAll encode fs ++ (toBE 4 p.length ++ p ++ r)
    ∧ p.length ≤ cfg.maxFrameBytes ∧ parse p = .ok f ∧ payload f ≠ p

/-- No valid encoding begins with a payload of that kind. -/
theorem stuck_of_loose (hmax : cfg.maxFrameBytes ≤ u32Max) {p r : Bytes}
    {f : F} (hp : p.length ≤ cfg.maxFrameBytes) (hparse : parse p = .ok f)
    (hne : payload f ≠ p) (g : F) (hg : Fits cfg g) :
    ¬ encode g <+: toBE 4 p.length ++ p ++ r := by
  rintro ⟨c, hc⟩
  have htake := takesBack hmax g hg c
  rw [hc] at htake
  have hboth := (nextFrame_payload hmax hp hparse).symm.trans htake
  cases ok.inj hboth
  have hsame := append_cancel_right hc
  exact hne (append_inj_right hsame (by rw [length_toBE, length_toBE]))

/-- Behind the longest prefix the parser fails, waits, or takes such a payload. -/
theorem loose_of_taken {fs : List F} {c r : Bytes} {f : F} (hfs : ∀ f ∈ fs, Fits cfg f)
    (hstuck : ∀ g : F, Fits cfg g → ¬ encode g <+: c)
    (htake : nextFrame F cfg.maxFrameBytes c = .ok (some (f, r))) :
    Loose F cfg (encodeAll encode fs ++ c) := by
  obtain ⟨p, hframe, hparse⟩ := nextFrame_eq_some htake
  obtain ⟨rfl, hp, -⟩ := takeFrame_eq_some hframe
  refine ⟨fs, p, r, f, hfs, rfl, hp, hparse, ?_⟩
  intro hsame
  have hfit : Fits cfg f := by
    rw [Fits, ← length_payload, hsame]
    exact hp
  apply hstuck f hfit
  rw [encode_eq, hsame]
  exact ⟨r, rfl⟩

/-- **WHERE THE READER STOPS**: a stream nobody has written is read to its longest valid prefix and
    then refused, unless a payload behind it parses that is no frame's own. -/
theorem stops_iff (hmax : cfg.maxFrameBytes ≤ u32Max) {cs : List Bytes} (hcs : ∀ c ∈ cs, c ≠ [])
    (hnot : ¬ Whole (encode (F := F)) (Fits cfg) cs.flatten) :
    Stops cfg cs.flatten (readFrames F cfg [] (cs.map .bytes)) ↔ ¬ Loose F cfg cs.flatten := by
  have hback := takesBack (F := F) hmax
  rw [readFrames_eq hcs]
  constructor
  · rintro ⟨fs, e, hlong, hevents⟩ ⟨gs, p, r, f, hgs, hb, hp, hparse, hne⟩
    have hstuck := stuck_of_loose (r := r) hmax hp hparse hne
    have hother : Longest encode (Fits cfg) cs.flatten gs := by
      rw [hb]
      exact longest_of_stuck hback hgs hstuck
    obtain rfl := hlong.unique hback hother
    have hnext := nextFrame_payload (r := r) hmax hp hparse
    rw [hb, drain_encodeAll hback hgs, Parser.drain_of_some hnext,
      deliver_append, append_cancel_left_eq] at hevents
    -- the payload that parses is delivered, where an error should be
    cases hz : ((frameParser F cfg.maxFrameBytes).drain r).2 with
    | error e' | ok rest =>
      rw [hz, deliver, map_cons, cons_append] at hevents
      cases (cons.inj hevents).1
  · intro hloose
    obtain ⟨fs, c, hb, hfs, hstuck⟩ := exists_longest hback cs.flatten
    have hlong := longest_of_stuck hback hfs hstuck
    rw [hb] at hnot hloose ⊢
    rw [drain_encodeAll hback hfs, deliver_append]
    match htake : nextFrame F cfg.maxFrameBytes c with
    | .error e =>
      refine ⟨fs, e, hlong, ?_⟩
      rw [Parser.drain_of_error htake]
      rfl
    | .ok none =>
      -- the stream ends inside a frame
      have hne : c ≠ [] := by
        intro hnil
        exact hnot ⟨fs, hfs, by rw [hnil, append_nil]⟩
      refine ⟨fs, .closed "stream ended inside a frame", hlong, ?_⟩
      rw [Parser.drain_of_none htake, deliver, atEnd, if_neg]
      · rfl
      · simpa using hne
    | .ok (some (f, r)) =>
      exact absurd (loose_of_taken hfs hstuck htake) hloose

end Connection

end Framing
