import Mathlib.Data.List.GetD
import NagisaLake.FramingProofs

/-! # The RPC frames — requests, cancellations and responses on the wire

A payload begins with its kind and a header of fixed layout; the body of the
application message follows.  Each frame parses back from its layout, and a
payload that parses is the layout of the frame it parses to, but for one
kind: `ClientFrame::parse` only asks whether a cancellation is too short.

`stream_round_trip` puts this on the byte stream of a connection: what is
queued is what is read; a stream that nobody has written is read to its
longest valid prefix and refused; the one exception is a cancellation with
bytes behind its id, which is delivered as if it had none. -/

namespace Wire

open Octets Streams Framing List
open Framing.Frame Framing.ParseFrame

/-! ## Fields -/

/-- `TraceId`. -/
structure TraceId where
  bytes : Bytes
  length_eq : bytes.length = 16
  deriving DecidableEq

/-- `TraceId::default`. -/
instance : Inhabited TraceId := ⟨⟨List.replicate 16 0, List.length_replicate⟩⟩

/-- `put_u64_le`. -/
def putU64Le (n : UInt64) : Bytes := toLE 8 n.toNat

/-- `read_u64`. -/
def readU64 (b : Bytes) : UInt64 := UInt64.ofNat (ofLE b)

/-- `read_trace_id`; the caller has checked the header's length. -/
def readTraceId (b : Bytes) : TraceId :=
  if h : b.length = 16 then ⟨b, h⟩ else default

/-- The bytes `i..j` of a payload. -/
def slice (b : Bytes) (i j : Nat) : Bytes := (b.drop i).take (j - i)

@[simp] theorem length_putU64Le (n : UInt64) : (putU64Le n).length = 8 :=
  length_toLE 8 _

theorem readU64_putU64Le (n : UInt64) : readU64 (putU64Le n) = n := by
  rw [readU64, putU64Le, ofLE_toLE n.toNat_lt, UInt64.ofNat_toNat]

variable {b : Bytes}

theorem putU64Le_readU64 (h : b.length = 8) : putU64Le (readU64 b) = b := by
  have hlt : ofLE b < 2 ^ 64 := by
    have := ofLE_lt b
    rw [h] at this
    exact this
  have hnum : (UInt64.ofNat (ofLE b)).toNat = ofLE b := by
    rw [UInt64.toNat_ofNat', Nat.mod_eq_of_lt hlt]
  have hback := toLE_ofLE b
  rw [h] at hback
  rw [putU64Le, readU64, hnum, hback]

theorem readTraceId_bytes (t : TraceId) : readTraceId t.bytes = t := by
  rw [readTraceId, dif_pos t.length_eq]

theorem bytes_readTraceId (h : b.length = 16) : (readTraceId b).bytes = b := by
  rw [readTraceId, dif_pos h]

theorem length_slice {i j : Nat} (h : j ≤ b.length) : (slice b i j).length = j - i := by
  rw [slice, length_take, length_drop]
  omega

theorem slice_append_drop {i j : Nat} (h : i ≤ j) : slice b i j ++ b.drop j = b.drop i := by
  have hdrop : b.drop j = (b.drop i).drop (j - i) := by
    rw [drop_drop, Nat.add_sub_cancel' h]
  rw [slice, hdrop, take_append_drop]

/-- The field between what is before it and what is behind it. -/
theorem slice_middle {a c : Bytes} {i j : Nat} (ha : a.length = i)
    (hb : b.length = j - i) : slice (a ++ (b ++ c)) i j = b := by
  rw [slice, drop_left' ha, take_left' hb]

/-- The kind and what is behind it. -/
theorem kind_append_drop {p : Bytes} {kind : UInt8}
    (h : p.head? = some kind) : [kind] ++ p.drop 1 = p := by
  cases p with
  | nil => cases h
  | cons x xs =>
    cases h
    rfl

/-! ## Status codes -/

/-- `Code`. -/
inductive Code where
  | cancelled
  | unknown
  | invalidArgument
  | deadlineExceeded
  | notFound
  | alreadyExists
  | permissionDenied
  | resourceExhausted
  | failedPrecondition
  | unimplemented
  | internal
  | unavailable
  | unauthenticated
  deriving DecidableEq, Repr

/-- `Code::as_wire`. -/
def Code.asWire : Code → UInt8
  | .cancelled => 1
  | .unknown => 2
  | .invalidArgument => 3
  | .deadlineExceeded => 4
  | .notFound => 5
  | .alreadyExists => 6
  | .permissionDenied => 7
  | .resourceExhausted => 8
  | .failedPrecondition => 9
  | .unimplemented => 10
  | .internal => 13
  | .unavailable => 14
  | .unauthenticated => 16

/-- `Code::from_wire`. -/
def Code.fromWire (byte : UInt8) : Option Code :=
  match byte.toNat with
  | 1 => some .cancelled
  | 2 => some .unknown
  | 3 => some .invalidArgument
  | 4 => some .deadlineExceeded
  | 5 => some .notFound
  | 6 => some .alreadyExists
  | 7 => some .permissionDenied
  | 8 => some .resourceExhausted
  | 9 => some .failedPrecondition
  | 10 => some .unimplemented
  | 13 => some .internal
  | 14 => some .unavailable
  | 16 => some .unauthenticated
  | _ => none

/-- The status byte of a success. -/
def statusOk : UInt8 := 0

theorem Code.fromWire_asWire (c : Code) : fromWire c.asWire = some c := by
  cases c <;> rfl

/-- No failure is written as a success. -/
theorem Code.asWire_ne_ok (c : Code) : c.asWire ≠ statusOk := by
  cases c <;> decide

theorem Code.asWire_of_fromWire {b : UInt8} {c : Code}
    (h : fromWire b = some c) : c.asWire = b := by
  apply UInt8.toNat_inj.mp
  rw [fromWire] at h
  split at h
  case h_14 => cases h
  all_goals
    next hb =>
      cases h
      rw [hb]
      rfl

/-- The status byte of a response. -/
def statusByte (code : Option Code) : UInt8 := code.elim statusOk Code.asWire

/-- The outcome a status byte stands for. -/
def readStatus (status : UInt8) : Except FrameError (Option Code) :=
  if status = statusOk then .ok none
  else match Code.fromWire status with
    | some code => .ok (some code)
    | none => .error (.unknownStatus status)

theorem readStatus_statusByte (code : Option Code) : readStatus (statusByte code) = .ok code := by
  cases code with
  | none => rfl
  | some c =>
    rw [statusByte, Option.elim_some, readStatus, if_neg c.asWire_ne_ok, c.fromWire_asWire]

theorem statusByte_of_readStatus {b : UInt8} {code : Option Code}
    (h : readStatus b = .ok code) : statusByte code = b := by
  rw [readStatus] at h
  split at h
  · next hok =>
    cases h
    exact hok.symm
  split at h
  · next c hc =>
    cases h
    exact Code.asWire_of_fromWire hc
  · cases h

/-! ## Frames -/

def kindRequest : UInt8 := 0x01

def kindCancel : UInt8 := 0x02

def kindResponse : UInt8 := 0x03

def requestHeaderLen : Nat := 1 + 8 + 8 + 16

def cancelFrameLen : Nat := 1 + 8

def responseHeaderLen : Nat := 1 + 8 + 1

/-- `ClientFrame`. -/
inductive ClientFrame where
  | request (id timeoutMicros : UInt64) (traceId : TraceId) (body : Bytes)
  | cancel (id : UInt64)
  deriving DecidableEq

/-- `ServerFrame::Response`: without a code it is the application's answer. -/
structure ServerFrame where
  id : UInt64
  code : Option Code
  body : Bytes
  deriving DecidableEq

namespace ClientFrame

/-- `payload_len`. -/
def payloadLen : ClientFrame → Nat
  | .request _ _ _ body => requestHeaderLen + body.length
  | .cancel _ => cancelFrameLen

/-- What `split_header` appends. -/
def header : ClientFrame → Bytes
  | .request id timeoutMicros traceId _ =>
    [kindRequest] ++ putU64Le id ++ putU64Le timeoutMicros ++ traceId.bytes
  | .cancel id => [kindCancel] ++ putU64Le id

/-- What `split_header` returns. -/
def body : ClientFrame → Bytes
  | .request _ _ _ body => body
  | .cancel _ => []

/-- `ClientFrame::parse`. -/
def parse (p : Bytes) : Except FrameError ClientFrame :=
  match p.head? with
  | none => .error .truncated
  | some kind =>
    if kind = kindRequest then
      if p.length < requestHeaderLen then .error .truncated
      else .ok (.request (readU64 (slice p 1 9)) (readU64 (slice p 9 17))
        (readTraceId (slice p 17 33)) (p.drop requestHeaderLen))
    else if kind = kindCancel then
      if p.length < cancelFrameLen then .error .truncated
      else .ok (.cancel (readU64 (slice p 1 9)))
    else .error (.unknownKind kind)

theorem payloadLen_eq (f : ClientFrame) : f.payloadLen = f.header.length + f.body.length := by
  cases f with
  | request id timeoutMicros traceId body =>
    simp [payloadLen, header, ClientFrame.body, traceId.length_eq, requestHeaderLen]
  | cancel id => simp [payloadLen, header, body, cancelFrameLen]

/-- A frame parses back from its layout. -/
theorem parse_layout (f : ClientFrame) : parse (f.header ++ f.body) = .ok f := by
  have hlen := f.payloadLen_eq
  rw [← length_append] at hlen
  cases f with rw [payloadLen] at hlen
  | request id timeoutMicros traceId body =>
    rw [parse, ← hlen, if_neg (by omega)]
    simp only [header, ClientFrame.body, append_assoc]
    have h1 : slice ([kindRequest] ++ (putU64Le id
        ++ (putU64Le timeoutMicros ++ (traceId.bytes ++ body)))) 1 9
        = putU64Le id := slice_middle rfl (length_putU64Le id)
    have h2 : slice ([kindRequest] ++ (putU64Le id
        ++ (putU64Le timeoutMicros ++ (traceId.bytes ++ body)))) 9 17
        = putU64Le timeoutMicros := by
      rw [← append_assoc]
      exact slice_middle (by simp) (by simp)
    have h3 : slice ([kindRequest] ++ (putU64Le id
        ++ (putU64Le timeoutMicros ++ (traceId.bytes ++ body)))) 17 33
        = traceId.bytes := by
      rw [← append_assoc, ← append_assoc]
      exact slice_middle (by simp) (by simp [traceId.length_eq])
    have h4 : ([kindRequest] ++ (putU64Le id ++ (putU64Le timeoutMicros
        ++ (traceId.bytes ++ body)))).drop requestHeaderLen = body := by
      rw [← append_assoc, ← append_assoc, ← append_assoc]
      exact drop_left' (by simp [traceId.length_eq, requestHeaderLen])
    rw [h1, h2, h3, h4, readU64_putU64Le, readU64_putU64Le, readTraceId_bytes]
    rfl
  | cancel id =>
    rw [parse, ← hlen, if_neg (Nat.lt_irrefl _)]
    simp only [header, body, append_assoc]
    have h1 : slice ([kindCancel] ++ (putU64Le id ++ [])) 1 9
        = putU64Le id := slice_middle rfl (length_putU64Le id)
    rw [h1, readU64_putU64Le]
    rfl

/-- A cancellation with more behind its id. -/
def overlongCancel (p : Bytes) : Bool :=
  decide (p.head? = some kindCancel) && decide (cancelFrameLen < p.length)

/-- A payload that parses is the layout of the frame it parses to, or a
    cancellation with something behind it. -/
theorem layout_of_parse {p : Bytes} {f : ClientFrame} (h : parse p = .ok f) :
    f.header ++ f.body = p ↔ overlongCancel p = false := by
  rw [parse] at h
  split at h
  · cases h
  next kind hkind =>
  have hp := kind_append_drop hkind
  split at h
  · next hreq =>
    split at h
    · cases h
    next hlen =>
    cases h
    rw [requestHeaderLen] at hlen
    have h1 := putU64Le_readU64 (length_slice (b := p) (i := 1) (j := 9) (by omega))
    have h2 := putU64Le_readU64 (length_slice (b := p) (i := 9) (j := 17) (by omega))
    have h3 := bytes_readTraceId (length_slice (b := p) (i := 17) (j := 33) (by omega))
    have hnot : overlongCancel p = false := by
      rw [overlongCancel, hkind, hreq]
      rfl
    rw [hnot]
    refine iff_of_true ?_ rfl
    simp only [header, body, h1, h2, h3, append_assoc, requestHeaderLen]
    rw [slice_append_drop (by decide), slice_append_drop (by decide),
      slice_append_drop (by decide), ← hreq, hp]
  · split at h
    · next hcancel =>
      split at h
      · cases h
      next hlen =>
      cases h
      rw [cancelFrameLen] at hlen
      have h1 := putU64Le_readU64 (length_slice (b := p) (i := 1) (j := 9) (by omega))
      simp only [header, body, h1, append_nil]
      rw [overlongCancel, hkind, hcancel, decide_eq_true rfl,
        Bool.true_and, decide_eq_false_iff_not, cancelFrameLen]
      -- the rest behind the id is the difference
      have hall : [kindCancel] ++ slice p 1 9 ++ p.drop 9 = p := by
        rw [append_assoc, slice_append_drop (by decide), ← hcancel, hp]
      constructor
      · intro hsame
        rw [hsame] at hall
        have := drop_eq_nil_iff.mp (append_right_eq_self.mp hall)
        omega
      · intro hshort
        have hnil : p.drop 9 = [] :=
          drop_eq_nil_iff.mpr (by omega)
        rwa [hnil, append_nil] at hall
    · cases h

/-- A cancellation with something behind its id parses. -/
theorem parse_overlongCancel {p : Bytes} (h : overlongCancel p = true) :
    parse p = .ok (.cancel (readU64 (slice p 1 9))) := by
  rw [overlongCancel, Bool.and_eq_true] at h
  have hkind := of_decide_eq_true h.1
  have hlen := of_decide_eq_true h.2
  rw [parse, hkind]
  simp only
  rw [if_neg (by decide), if_pos trivial, if_neg (by omega)]

instance : LawfulFrame ClientFrame where
  payloadLen := payloadLen
  header := header
  body := body
  payloadLen_eq := payloadLen_eq
  parse := parse
  parse_payload := parse_layout

end ClientFrame

namespace ServerFrame

/-- `payload_len`. -/
def payloadLen (f : ServerFrame) : Nat := responseHeaderLen + f.body.length

/-- What `split_header` appends. -/
def header (f : ServerFrame) : Bytes :=
  [kindResponse] ++ putU64Le f.id ++ [statusByte f.code]

/-- `ServerFrame::parse`. -/
def parse (p : Bytes) : Except FrameError ServerFrame :=
  match p.head? with
  | none => .error .truncated
  | some kind =>
    if kind = kindResponse then
      if p.length < responseHeaderLen then .error .truncated
      else
        match readStatus (p.getD 9 0) with
        | .error e => .error e
        | .ok code => .ok {
            id := readU64 (slice p 1 9)
            code := code
            body := p.drop responseHeaderLen }
    else .error (.unknownKind kind)

theorem payloadLen_eq (f : ServerFrame) : f.payloadLen = f.header.length + f.body.length := by
  simp [payloadLen, header, responseHeaderLen]

/-- A response parses back from its layout. -/
theorem parse_layout (f : ServerFrame) : parse (f.header ++ f.body) = .ok f := by
  have hlen := f.payloadLen_eq
  rw [← length_append, payloadLen] at hlen
  rw [parse, ← hlen, if_neg (by omega)]
  simp only [header, append_assoc]
  have h1 : slice ([kindResponse] ++ (putU64Le f.id
      ++ ([statusByte f.code] ++ f.body))) 1 9 = putU64Le f.id :=
    slice_middle rfl (length_putU64Le f.id)
  have h2 : ([kindResponse] ++ (putU64Le f.id
      ++ ([statusByte f.code] ++ f.body))).getD 9 0 = statusByte f.code := by
    simp
  have h3 : ([kindResponse] ++ (putU64Le f.id ++ ([statusByte f.code]
      ++ f.body))).drop responseHeaderLen = f.body := by
    rw [← append_assoc, ← append_assoc]
    exact drop_left' (by simp [responseHeaderLen])
  rw [h1, h2, h3, readU64_putU64Le, readStatus_statusByte]
  rfl

/-- A payload that parses is the layout of the response it parses to. -/
theorem layout_of_parse {p : Bytes} {f : ServerFrame} (h : parse p = .ok f) :
    f.header ++ f.body = p := by
  rw [parse] at h
  split at h
  · cases h
  next kind hkind =>
  have hp := kind_append_drop hkind
  split at h
  · next hres =>
    split at h
    · cases h
    next hlen =>
    rw [responseHeaderLen] at hlen
    split at h
    · cases h
    next code hcode =>
    cases h
    have h1 := putU64Le_readU64 (length_slice (b := p) (i := 1) (j := 9) (by omega))
    have h2 : p.drop 9 = [p.getD 9 0] ++ p.drop 10 := by
      rw [drop_eq_getElem_cons (by omega), List.getD_eq_getElem p 0 (by omega)]
      rfl
    simp only [header, h1, statusByte_of_readStatus hcode, append_assoc, responseHeaderLen]
    rw [← h2, slice_append_drop (by decide), ← hres, hp]
  · cases h

instance : LawfulFrame ServerFrame where
  payloadLen := payloadLen
  header := header
  body := ServerFrame.body
  payloadLen_eq := payloadLen_eq
  parse := parse
  parse_payload := parse_layout

end ServerFrame

/-! ## The byte stream of a connection -/

/-- Behind a prefix of valid encodings comes a payload within the limit that is
    a cancellation with something behind its id. -/
def Overlong (cfg : FrameConfig) (b : Bytes) : Prop :=
  ∃ (fs : List ClientFrame) (p r : Bytes), (∀ f ∈ fs, Fits cfg f)
    ∧ b = encodeAll encode fs ++ (toBE 4 p.length ++ p ++ r)
    ∧ p.length ≤ cfg.maxFrameBytes ∧ ClientFrame.overlongCancel p = true

theorem loose_client_iff {cfg : FrameConfig} : Loose ClientFrame cfg b ↔ Overlong cfg b := by
  constructor
  · rintro ⟨fs, p, r, f, hfs, hb, hp, hparse, hne⟩
    refine ⟨fs, p, r, hfs, hb, hp, ?_⟩
    have hlayout := ClientFrame.layout_of_parse hparse
    exact eq_true_of_ne_false fun hno => hne (hlayout.mpr hno)
  · rintro ⟨fs, p, r, hfs, hb, hp, hlong⟩
    have hparse := ClientFrame.parse_overlongCancel hlong
    have hlayout := ClientFrame.layout_of_parse hparse
    refine ⟨fs, p, r, _, hfs, hb, hp, hparse, ?_⟩
    intro hsame
    rw [hlayout.mp hsame] at hlong
    cases hlong

theorem not_loose_server {cfg : FrameConfig} : ¬ Loose ServerFrame cfg b := by
  rintro ⟨fs, p, r, f, hfs, hb, hp, hparse, hne⟩
  exact hne (ServerFrame.layout_of_parse hparse)

/-- **THE BYTE STREAM IS A LIST OF FRAMES**: in both directions what is queued
    is read, for all batches and all reads; and a stream nobody has written is
    read to its longest valid prefix and then refused, in the client's direction
    exactly if no overlong cancellation stands behind that prefix. -/
theorem stream_round_trip {cfg : FrameConfig} (hcfg : cfg.validate = .ok ()) :
    RoundTrip ClientFrame cfg ∧ RoundTrip ServerFrame cfg
    ∧ (∀ cs : List Bytes, (∀ c ∈ cs, c ≠ []) →
        ¬ Whole (encode (F := ServerFrame)) (Fits cfg) cs.flatten →
        Stops cfg cs.flatten (readFrames ServerFrame cfg [] (cs.map .bytes)))
    ∧ ∀ cs : List Bytes, (∀ c ∈ cs, c ≠ []) →
        ¬ Whole (encode (F := ClientFrame)) (Fits cfg) cs.flatten →
        (Stops cfg cs.flatten (readFrames ClientFrame cfg [] (cs.map .bytes))
          ↔ ¬ Overlong cfg cs.flatten) := by
  have hmax := FrameConfig.limit_of_validate hcfg
  refine ⟨readFrames_writeFrames hmax, readFrames_writeFrames hmax, ?_, ?_⟩
  · intro cs hcs hnot
    exact (stops_iff hmax hcs hnot).mpr not_loose_server
  · intro cs hcs hnot
    rw [stops_iff hmax hcs hnot, loose_client_iff]

/-- The default settings are valid, and the stream is faithful under them. -/
theorem default_round_trip : FrameConfig.validate {} = .ok ()
    ∧ RoundTrip ClientFrame {} ∧ RoundTrip ServerFrame {} :=
  ⟨rfl, (stream_round_trip rfl).1, (stream_round_trip rfl).2.1⟩

/-- A cancellation of request 1, and one byte more in its payload. -/
def longCancel : Bytes := [0, 0, 0, 10, 2, 1, 0, 0, 0, 0, 0, 0, 0, 255]

theorem nextFrame_longCancel : nextFrame ClientFrame ({} : FrameConfig).maxFrameBytes longCancel
      = .ok (some (.cancel 1, [])) := rfl

theorem drain_longCancel :
    (frameParser ClientFrame ({} : FrameConfig).maxFrameBytes).drain longCancel
      = ([.cancel 1], .ok []) := by
  have hend : (frameParser ClientFrame ({} : FrameConfig).maxFrameBytes).drain [] = ([], .ok []) :=
    Parser.drain_of_none rfl
  rw [Parser.drain_of_some nextFrame_longCancel, hend]

/-- The longer cancellation is no concatenation of valid encodings, and the
    reader delivers it as a cancellation and ends cleanly. -/
theorem longCancel_read : FrameConfig.validate {} = .ok ()
    ∧ ¬ Whole (encode (F := ClientFrame)) (Fits {}) longCancel
    ∧ readFrames ClientFrame {} [] [.bytes longCancel] = [.frame (.cancel 1), .closed] := by
  refine ⟨rfl, ?_, ?_⟩
  · rintro ⟨fs, hfs, hb⟩
    have hback : TakesBack (frameParser ClientFrame
        ({} : FrameConfig).maxFrameBytes) encode (Fits {}) :=
      takesBack (by decide)
    have hdrain := drain_encodeAll hback hfs []
    rw [append_nil, ← hb, drain_longCancel, Parser.drain_of_none rfl, append_nil] at hdrain
    obtain rfl := (Prod.mk.inj hdrain).1
    exact absurd hb (by decide)
  · have hread : readFrames ClientFrame {} [] ([longCancel].map .bytes) = _ :=
      readFrames_eq (by decide)
    rw [flatten_singleton, drain_longCancel] at hread
    exact hread

end Wire
