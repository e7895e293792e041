import NagisaLake.SupervisorProofs

/-! # Answers — one failing call and the frame limit

A response that is too large is replaced by a status, because the frame
would end the connection for every other call on it.  The status has a
message of its own, and so has every other status the server sends: the
service's, the codec's, and the fixed texts of the supervisor.  Nothing
bounds them.

`sound_iff` is exact: the writer never meets a frame that is too large, and
nobody's answer is lost to one, if and only if every message that is sent
leaves room for the ten bytes of a response's header. -/

namespace Answers

open KeyedTable Runs Pools Framing Wire Supervisor List
open Framing.Frame

variable {Req Resp : Type} {cfg : ServerConfig} {codec : Codec Req Resp}
  {s t : Conn}

/-! ## Messages that fit -/

/-- The bytes of a text on the wire, with a response's header before them, are within the limit. -/
def TextFits (cfg : ServerConfig) (text : String) : Prop :=
  responseHeaderLen + text.toUTF8.data.toList.length ≤ cfg.frame.maxFrameBytes

instance (cfg : ServerConfig) (text : String) : Decidable (TextFits cfg text) :=
  inferInstanceAs (Decidable (_ ≤ _))

/-- Whatever text the outcome of a call leads to fits. -/
def OutcomeFits (cfg : ServerConfig) (codec : Codec Req Resp) (body : Bytes)
    (outcome : Outcome Resp) : Prop :=
  match codec.decode body with
  | .error e => TextFits cfg e.toString
  | .ok _ =>
    match outcome with
    | .error status => TextFits cfg status.message
    | .timedOut => TextFits cfg "request deadline exceeded"
    | .response r =>
      match codec.encode r with
      | .error e => TextFits cfg e.toString
      | .ok encoded =>
        if encoded.length ≤ maxResponseBytes cfg then
          responseHeaderLen ≤ cfg.frame.maxFrameBytes
        else
          let bytes := encoded.length
          let limit := maxResponseBytes cfg
          TextFits cfg s!"encoded response is {bytes} bytes, limit is {limit}"

/-- The text a request is refused with, if it is, fits. -/
def RefusalFits (cfg : ServerConfig) (s : Conn) (id timeoutMicros : UInt64) :
    Prop :=
  if (s.aborts.find? id).isSome then
    TextFits cfg "request id is already in flight"
  else if timeoutMicros = 0 then TextFits cfg "request deadline exceeded"
  else if cfg.maxRequestTimeout / 1000 < timeoutMicros.toNat then
    TextFits cfg "request timeout exceeds the server limit"
  else if cfg.maxInFlightRequestsPerConnection ≤ s.aborts.rows.length then
    TextFits cfg "server request capacity exhausted"
  else True

/-- What a step sends, if it sends anything, leaves room for the header. -/
def Modest (cfg : ServerConfig) (codec : Codec Req Resp) (s : Conn) : Act Resp → Prop
  | .answer i outcome => ∀ h : Handler, s.handlers[i]? = some h →
      OutcomeFits cfg codec h.body outcome
  | .receive (some (.frame (.request id timeoutMicros _ _))) =>
    RefusalFits cfg s id timeoutMicros
  | _ => True

variable {id : UInt64}

theorem fits_responseFrame_iff {body : Bytes} {outcome : Outcome Resp} :
    Fits cfg.frame (responseFrame cfg codec id body outcome)
      ↔ OutcomeFits cfg codec body outcome := by
  cases hd : codec.decode body with
  | error e =>
    simp only [responseFrame, OutcomeFits, hd]
    exact Iff.rfl
  | ok request =>
    cases outcome with
    | error status | timedOut =>
      simp only [responseFrame, OutcomeFits, hd]
      exact Iff.rfl
    | response r =>
      cases he : codec.encode r with simp only [responseFrame, OutcomeFits, hd, he]
      | error e =>
        exact Iff.rfl
      | ok encoded =>
        by_cases hlen : encoded.length ≤ maxResponseBytes cfg
        · rw [if_pos hlen, if_pos hlen]
          show responseHeaderLen + encoded.length ≤ _ ↔ _
          -- below ten bytes the limit of a body is zero, not negative
          rw [maxResponseBytes] at hlen
          omega
        · rw [if_neg hlen, if_neg hlen]
          exact Iff.rfl

theorem refusalFits_iff {timeoutMicros : UInt64} {status : Status}
    (h : rejection cfg s id timeoutMicros = some status) :
    RefusalFits cfg s id timeoutMicros ↔ TextFits cfg status.message := by
  rw [rejection] at h
  rw [RefusalFits]
  split at h
  · next hdup =>
    cases h
    rw [if_pos hdup]
    exact Iff.rfl
  · next hdup =>
    rw [if_neg hdup]
    split at h
    · next hzero =>
      cases h
      rw [if_pos hzero]
      exact Iff.rfl
    · next hzero =>
      rw [if_neg hzero]
      split at h
      · next hlarge =>
        cases h
        rw [if_pos hlarge]
        exact Iff.rfl
      · next hlarge =>
        rw [if_neg hlarge]
        obtain ⟨hfull, rfl⟩ := of_guard h
        rw [if_pos hfull]
        exact Iff.rfl

/-! ## A connection that keeps working -/

/-- Every frame that was queued and not lost, in order. -/
def frames (s : Conn) : List ServerFrame := s.written ++ s.outgoing

/-- The task of this handler has sent its response. -/
structure Spoke (s : Conn) (i : Nat) (h : Handler) : Prop where
  handler : s.handlers[i]? = some h
  progress : h.progress = .answered ∨ h.progress = .done

/-- Which frame answers which handler: all that have sent a response have places of their own among
    the frames, and the frame there is the response to the handler's own request. -/
structure Places (cfg : ServerConfig) (codec : Codec Req Resp) (s : Conn) (place : Nat → Nat) :
    Prop where
  response : ∀ i h, Spoke s i h →
    ∃ outcome, (frames s)[place i]? = some (responseFrame cfg codec h.id h.body outcome)
  own : ∀ i j hi hj, Spoke s i hi → Spoke s j hj → place i = place j → i = j

/-- No frame is too large for the writer, and every response sent while it
    works is in what it writes. -/
structure Sound (cfg : ServerConfig) (codec : Codec Req Resp) (s : Conn) : Prop where
  fits : ∀ f ∈ frames s, Fits cfg.frame f
  writes : ∀ queue : List (Queued ServerFrame), queue.map Queued.frame = frames s →
      writeFrames cfg.frame ⟨[], []⟩ queue = (⟨Streams.encodeAll encode (frames s), []⟩, .ok ())
  stopped : ∀ e, s.writer = .stopped e → ∃ unexpectedEof text, e = .io unexpectedEof text
  answered : s.writer = .running → ∃ place, Places cfg codec s place

/-- The part of it a step has to keep. -/
structure Inv (cfg : ServerConfig) (codec : Codec Req Resp) (s : Conn) : Prop where
  fits : ∀ f ∈ frames s, Fits cfg.frame f
  stopped : ∀ e, s.writer = .stopped e → ∃ unexpectedEof text, e = .io unexpectedEof text
  answered : s.writer = .running → ∃ place, Places cfg codec s place

theorem Inv.sound (hi : Inv cfg codec s) : Sound cfg codec s := { hi with
  writes := by
    intro queue hqueue
    have hfits : ∀ q ∈ queue, Fits cfg.frame q.frame := by
      intro q hq
      apply hi.fits
      rw [← hqueue]
      exact mem_map_of_mem hq
    rw [writeFrames_ok queue _ rfl hfits, hqueue]
    rfl }

/-- Nobody has answered, and the queue is as it was as long as the writer works. -/
structure Quiet (s t : Conn) : Prop where
  fewer : ∀ f ∈ frames t, f ∈ frames s
  stopped : ∀ e, t.writer = .stopped e → s.writer = .stopped e
    ∨ ∃ unexpectedEof text, e = .io unexpectedEof text
  frames : t.writer = .running → s.writer = .running ∧ frames t = frames s
  spoke : ∀ i h, Spoke t i h → ∃ h₀, Spoke s i h₀ ∧ h₀.id = h.id ∧ h₀.body = h.body

theorem Inv.quiet (hi : Inv cfg codec s) (hq : Quiet s t) : Inv cfg codec t where
  fits := fun f hf => hi.fits f (hq.fewer f hf)
  stopped := by
    intro e he
    cases hq.stopped e he with
    | inl hold => exact hi.stopped e hold
    | inr hio => exact hio
  answered := by
    intro hrun
    obtain ⟨hold, hframes⟩ := hq.frames hrun
    obtain ⟨place, hplace⟩ := hi.answered hold
    refine ⟨place, ?_, ?_⟩
    · intro i h hspoke
      obtain ⟨h₀, hspoke₀, hid, hbody⟩ := hq.spoke i h hspoke
      rw [hframes, ← hid, ← hbody]
      exact hplace.response i h₀ hspoke₀
    · intro i j hi hj hspokei hspokej
      obtain ⟨_, hspokei, -⟩ := hq.spoke i hi hspokei
      obtain ⟨_, hspokej, -⟩ := hq.spoke j hj hspokej
      exact hplace.own i j _ _ hspokei hspokej

/-- The step concerns neither the queue nor the writer. -/
theorem quiet_of_eq (hw : t.written = s.written) (ho : t.outgoing = s.outgoing)
    (hwriter : t.writer = s.writer)
    (hspoke : ∀ i h, Spoke t i h → ∃ h₀, Spoke s i h₀ ∧ h₀.id = h.id ∧ h₀.body = h.body) :
    Quiet s t := by
  have hframes : frames t = frames s := by rw [frames, frames, hw, ho]
  constructor
  · intro f hf
    rwa [hframes] at hf
  · intro e he
    rw [hwriter] at he
    exact .inl he
  · intro hrun
    rw [hwriter] at hrun
    exact ⟨hrun, hframes⟩
  · exact hspoke

theorem spoke_of_eq (ht : t.handlers = s.handlers) (i : Nat) (h : Handler) (hspoke : Spoke t i h) :
    ∃ h₀, Spoke s i h₀ ∧ h₀.id = h.id ∧ h₀.body = h.body :=
  ⟨h, ⟨ht ▸ hspoke.handler, hspoke.progress⟩, rfl, rfl⟩

/-- The writer stops, for a reason of the transport's or because the supervisor has ended. -/
theorem quiet_stopWriter {w : WriterState} (hne : w ≠ .running)
    (hw : ∀ e, w = .stopped e → ∃ unexpectedEof text, e = .io unexpectedEof text)
    (hwritten : t.written = s.written) (ho : t.outgoing = [])
    (hwriter : t.writer = w) (hh : t.handlers = s.handlers) : Quiet s t where
  fewer := by
    intro f hf
    rw [frames, hwritten, ho, append_nil] at hf
    exact mem_append_left _ hf
  stopped := by
    intro e he
    rw [hwriter] at he
    exact .inr (hw e he)
  frames := by
    intro hrun
    rw [hwriter] at hrun
    exact absurd hrun hne
  spoke := spoke_of_eq hh

/-- A handler changes without having answered in between. -/
theorem spoke_set {i : Nat} {h h' : Handler} (hh : s.handlers[i]? = some h)
    (ht : t.handlers = s.handlers.set i h') (hid : h'.id = h.id) (hbody : h'.body = h.body)
    (hsame : h'.progress = .answered ∨ h'.progress = .done →
      h.progress = .answered ∨ h.progress = .done) (j : Nat) (g : Handler) (hspoke : Spoke t j g) :
    ∃ h₀, Spoke s j h₀ ∧ h₀.id = g.id ∧ h₀.body = g.body := by
  have hget := hspoke.handler
  rw [ht] at hget
  rcases set_cases hget with ⟨rfl, rfl⟩ | ⟨-, hold⟩
  · exact ⟨h, ⟨hh, hsame hspoke.progress⟩, hid.symm, hbody.symm⟩
  · exact ⟨g, ⟨hold, hspoke.progress⟩, rfl, rfl⟩

/-- An abort changes neither who has answered nor whose request it is. -/
theorem spoke_abort {p : Nat → Bool} (ht : ∀ i : Nat, t.handlers[i]? = (s.handlers[i]?).map
      fun h => if p i then { h with aborted := true } else h)
    (i : Nat) (h : Handler) (hspoke : Spoke t i h) :
    ∃ h₀, Spoke s i h₀ ∧ h₀.id = h.id ∧ h₀.body = h.body := by
  obtain ⟨h₀, hh₀, rfl⟩ := Option.map_eq_some_iff.mp ((ht i).symm.trans hspoke.handler)
  have hprogress := hspoke.progress
  refine ⟨h₀, ⟨hh₀, ?_⟩, ?_⟩
  · split at hprogress
    · exact hprogress
    · exact hprogress
  · split
    · exact ⟨rfl, rfl⟩
    · exact ⟨rfl, rfl⟩

/-! ## One step -/

variable {f : ServerFrame}

/-- A send while the writer works, and one after it has stopped. -/
theorem send_eq_some {r : Conn × Bool} (h : s.send cfg f = some r) :
    (s.writer = .running ∧ r = ({ s with outgoing := s.outgoing ++ [f] }, true))
      ∨ (s.writer ≠ .running ∧ r = (s, false)) := by
  rw [Conn.send] at h
  split at h
  case h_1 hrun =>
    split at h
    · exact .inl ⟨hrun, (Option.some.inj h).symm⟩
    · cases h
  all_goals
    next hstop =>
    refine .inr ⟨?_, (Option.some.inj h).symm⟩
    rw [hstop]
    simp

/-- What is in the queue stays where it is. -/
theorem getElem?_queued {l : List ServerFrame} {n : Nat} {g : ServerFrame} (h : l[n]? = some g) :
    (l ++ [f])[n]? = some g := by
  rw [getElem?_append_left (List.getElem?_eq_some_iff.mp h).1, h]

theorem frames_queued (f : ServerFrame) :
    frames { s with outgoing := s.outgoing ++ [f] } = frames s ++ [f] := by
  rw [frames, frames, append_assoc]

theorem mem_queued : f ∈ frames { s with outgoing := s.outgoing ++ [f] } := by
  rw [frames_queued]
  exact mem_append_right _ (mem_singleton.mpr rfl)

/-- A frame that fits is queued. -/
theorem Inv.queued (hi : Inv cfg codec s) (hf : Fits cfg.frame f) :
    Inv cfg codec { s with outgoing := s.outgoing ++ [f] } where
  fits := by
    intro g hg
    rw [frames_queued] at hg
    cases mem_append.mp hg with
    | inl hold => exact hi.fits g hold
    | inr hnew => rwa [mem_singleton.mp hnew]
  stopped := hi.stopped
  answered := by
    intro hrun
    obtain ⟨place, hplace⟩ := hi.answered hrun
    refine ⟨place, fun i h hspoke => ?_, fun i j _ _ hspokei hspokej =>
      hplace.own i j _ _ ⟨hspokei.1, hspokei.2⟩ ⟨hspokej.1, hspokej.2⟩⟩
    obtain ⟨outcome, hframe⟩ := hplace.response i h ⟨hspoke.1, hspoke.2⟩
    exact ⟨outcome, by rw [frames_queued]; exact getElem?_queued hframe⟩

/-- A handler answers: its frame is queued in the step in which it has spoken. -/
theorem Inv.spoken (hi : Inv cfg codec s) {i : Nat} {h : Handler} {outcome : Outcome Resp}
    (hh : s.handlers[i]? = some h) (hf : f = responseFrame cfg codec h.id h.body outcome)
    (hfits : Fits cfg.frame f) :
    Inv cfg codec (({ s with outgoing := s.outgoing ++ [f] } : Conn).progress i h .answered) where
  fits := (hi.queued hfits).fits
  stopped := hi.stopped
  answered := by
    intro hwriter
    obtain ⟨place, hplace⟩ := hi.answered hwriter
    -- the others keep their places, and its own is the last
    have hothers : ∀ j g, Spoke (({ s with outgoing := s.outgoing ++ [f] } : Conn).progress i h
        .answered) j g →
        (j = i ∧ g = { h with progress := .answered }) ∨ (j ≠ i ∧ Spoke s j g) := by
      intro j g hspoke
      rcases set_cases hspoke.handler with hnew | ⟨hne, hold⟩
      · exact .inl hnew
      · exact .inr ⟨hne, hold, hspoke.progress⟩
    have hbound : ∀ j g, Spoke s j g → place j < (frames s).length := by
      intro j g hspoke
      obtain ⟨_, hframe⟩ := hplace.response j g hspoke
      exact (List.getElem?_eq_some_iff.mp hframe).1
    refine ⟨Function.update place i (frames s).length, fun j g hspoke => ?_, ?_⟩
    · show ∃ outcome, (frames { s with outgoing := s.outgoing ++ [f] })[_]? = _
      rw [frames_queued]
      rcases hothers j g hspoke with ⟨rfl, rfl⟩ | ⟨hne, hold⟩
      · exact ⟨outcome, by rw [Function.update_self, getElem?_concat_length, hf]⟩
      · obtain ⟨outcome', hframe⟩ := hplace.response j g hold
        exact ⟨outcome', by rw [Function.update_of_ne hne]; exact getElem?_queued hframe⟩
    · intro j k _ _ hspokej hspokek hplaces
      rcases hothers j _ hspokej with ⟨rfl, -⟩ | ⟨hnej, holdj⟩
      · rcases hothers k _ hspokek with ⟨rfl, -⟩ | ⟨hnek, holdk⟩
        · rfl
        · rw [Function.update_self, Function.update_of_ne hnek] at hplaces
          exact absurd hplaces.symm (Nat.ne_of_lt (hbound k _ holdk))
      · rcases hothers k _ hspokek with ⟨rfl, -⟩ | ⟨hnek, holdk⟩
        · rw [Function.update_self, Function.update_of_ne hnej] at hplaces
          exact absurd hplaces (Nat.ne_of_lt (hbound j _ holdj))
        · rw [Function.update_of_ne hnej, Function.update_of_ne hnek] at hplaces
          exact hplace.own j k _ _ holdj holdk hplaces

theorem inv_receive (hi : Inv cfg codec s) {event : Option (ReadEvent ClientFrame)}
    (hok : s.writer = .running → Modest cfg codec s (.receive event))
    (hs : receive cfg s event = some t) : Inv cfg codec t := by
  rw [receive.eq_def] at hs
  split at hs
  · -- a cancellation
    split at hs
    · next id a ha =>
      cases hs
      refine hi.quiet (quiet_of_eq rfl rfl rfl (spoke_abort (p := fun i => decide (a.task = i)) ?_))
      intro i
      show (s.handlers.modify a.task _)[i]? = _
      rw [getElem?_modify]
      simp only [decide_eq_true_eq]
      rfl
    · cases hs
      exact hi
  · -- a request: admitted, or answered with a status
    next id timeoutMicros traceId body =>
    split at hs
    · cases hs
      refine hi.quiet (quiet_of_eq rfl rfl rfl fun i h hspoke => ?_)
      rcases append_cases hspoke.handler with hold | ⟨-, rfl⟩
      · exact ⟨h, ⟨hold, hspoke.progress⟩, rfl, rfl⟩
      · rcases hspoke.progress with hno | hno <;> cases hno
    · next status hrej =>
      obtain ⟨r, hsend, rfl⟩ := Option.map_eq_some_iff.mp hs
      cases send_eq_some hsend with
      | inl hin =>
        obtain ⟨hrun, rfl⟩ := hin
        exact hi.queued ((refusalFits_iff hrej).mp (hok hrun))
      | inr hout =>
        obtain ⟨-, rfl⟩ := hout
        exact hi.quiet (quiet_of_eq rfl rfl rfl (spoke_of_eq rfl))
  all_goals
    cases hs
    exact hi.quiet (quiet_of_eq rfl rfl rfl (spoke_of_eq rfl))

theorem inv_step {a : Act Resp} (hi : Inv cfg codec s)
    (hok : s.writer = .running → Modest cfg codec s a)
    (hs : step cfg codec s a = some t) : Inv cfg codec t := by
  cases a with rw [step] at hs
  | receive event =>
    split at hs
    · exact inv_receive hi hok hs
    · cases hs
  | joinNext i =>
    split at hs
    · cases hs
    next h hh =>
    split at hs
    · split at hs
      · cases hs
        rw [reap]
        split
        all_goals exact hi.quiet (quiet_of_eq rfl rfl rfl (spoke_set hh rfl rfl rfl fun hp => hp))
      · cases hs
        exact hi.quiet (quiet_of_eq rfl rfl rfl (spoke_set hh rfl rfl rfl fun hp => hp))
      · cases hs
    · cases hs
  | shutdown | writerEnded =>
    split at hs
    · cases hs
      exact hi.quiet (quiet_of_eq rfl rfl rfl (spoke_of_eq rfl))
    · cases hs
  | graceElapsed =>
    split at hs
    · cases hs
      refine hi.quiet (quiet_of_eq rfl rfl rfl (spoke_abort (p := fun _ => true) ?_))
      exact fun i => getElem?_map
    · cases hs
  | close =>
    split at hs
    · split at hs
      · simp only at hs
        split at hs
        · cases hs
          exact hi.quiet (quiet_of_eq rfl rfl rfl (spoke_of_eq rfl))
        split at hs
        · cases hs
          exact hi.quiet (quiet_stopWriter (w := .aborted) (by simp) (by simp) rfl rfl rfl rfl)
        · cases hs
          exact hi.quiet (quiet_of_eq rfl rfl rfl (spoke_of_eq rfl))
      · cases hs
    · cases hs
  | answer i outcome =>
    split at hs
    · cases hs
    next h hh =>
    split at hs
    · obtain ⟨r, hsend, rfl⟩ := Option.map_eq_some_iff.mp hs
      cases send_eq_some hsend with
      | inl hin =>
        obtain ⟨hwriter, rfl⟩ := hin
        exact hi.spoken hh rfl (fits_responseFrame_iff.mpr (hok hwriter h hh))
      | inr hout =>
        -- the frame is lost, but so is the writer
        obtain ⟨hwriter, rfl⟩ := hout
        exact ⟨hi.fits, hi.stopped, fun hr => absurd hr hwriter⟩
    · cases hs
  | finish i =>
    split at hs
    · cases hs
    next h hh =>
    obtain ⟨hp, rfl⟩ := of_guard hs
    exact hi.quiet (quiet_of_eq rfl rfl rfl (spoke_set hh rfl rfl rfl fun _ => .inl hp))
  | panic i | cancelled i =>
    split at hs
    · cases hs
    next h hh =>
    obtain ⟨-, rfl⟩ := of_guard hs
    exact hi.quiet (quiet_of_eq rfl rfl rfl (spoke_set hh rfl rfl rfl (by simp)))
  | write =>
    split at hs
    · next f rest hwriter hout =>
      split at hs
      · next hlarge =>
        -- what is queued fits
        have hf : f ∈ frames s := by
          rw [frames, hout]
          exact mem_append_right _ mem_cons_self
        exact absurd (hi.fits f hf) (Nat.not_le.mpr hlarge)
      · cases hs
        have hframes : frames { s with
            outgoing := rest, written := s.written ++ [f] }
            = frames s := by
          rw [frames, frames, hout, append_assoc]
          rfl
        refine hi.quiet ⟨?_, fun e he => .inl he, fun hr => ⟨hr, hframes⟩, spoke_of_eq rfl⟩
        intro g hg
        rwa [hframes] at hg
    · cases hs
  | writeFailed unexpectedEof text =>
    split at hs
    · cases hs
      refine hi.quiet (quiet_stopWriter (w := .stopped _) (by simp) ?_ rfl rfl rfl rfl)
      intro e he
      exact ⟨unexpectedEof, text, (WriterState.stopped.inj he).symm⟩
    · cases hs

/-! ## The condition is exact -/

/-- A step whose message does not fit queues a frame that does not. -/
theorem not_fits_of_not_modest {a : Act Resp}
    (hs : step cfg codec s a = some t) (hrun : s.writer = .running)
    (hno : ¬ Modest cfg codec s a) :
    ∃ f ∈ frames t, ¬ Fits cfg.frame f := by
  cases a with rw [step] at hs
  | receive event =>
    split at hs
    · rcases event with _ | ⟨⟨id, timeoutMicros, traceId, body⟩ | id⟩ | _ | e
      case some.frame.request =>
        rw [receive] at hs
        split at hs
        · next hrej =>
          -- a request that is admitted is answered later
          refine absurd ?_ hno
          rw [Modest, RefusalFits]
          rw [rejection] at hrej
          split_ifs at hrej ⊢
        · next status hrej =>
          obtain ⟨r, hsend, rfl⟩ := Option.map_eq_some_iff.mp hs
          cases send_eq_some hsend with
          | inl hin =>
            obtain ⟨-, rfl⟩ := hin
            exact ⟨statusFrame id status, mem_queued, fun hfits =>
              hno ((refusalFits_iff hrej).mpr hfits)⟩
          | inr hout => exact absurd hrun hout.1
      all_goals exact absurd trivial hno
    · cases hs
  | answer i outcome =>
    split at hs
    · cases hs
    next h hh =>
    split at hs
    · obtain ⟨r, hsend, rfl⟩ := Option.map_eq_some_iff.mp hs
      cases send_eq_some hsend with
      | inl hin =>
        obtain ⟨-, rfl⟩ := hin
        refine ⟨responseFrame cfg codec h.id h.body outcome, mem_queued (s := s), ?_⟩
        intro hfits
        apply hno
        intro h' hh'
        cases hh.symm.trans hh'
        exact fits_responseFrame_iff.mp hfits
      | inr hout => exact absurd hrun hout.1
    · cases hs
  | _ => exact absurd trivial hno

theorem inv_start : Inv cfg codec {} where
  fits := fun _ hf => nomatch hf
  stopped := fun _ he => nomatch he
  answered := by
    have hnobody : ∀ i h, ¬ Spoke {} i h := by
      rintro i h ⟨hh, -⟩
      cases hh
    exact fun _ => ⟨fun i => i, fun i h hspoke => absurd hspoke (hnobody i h),
      fun i _ h _ hspoke => absurd hspoke (hnobody i h)⟩

/-- **A CALL THAT FAILS FAILS ALONE**: all frames that are queued fit, the writer writes them all,
    it stops for nothing but a failing transport, and no answer is lost while it works, exactly if
    each step that sends a message to a working writer sends one that fits. -/
theorem sound_iff (cfg : ServerConfig) (codec : Codec Req Resp) (as : List (Act Resp)) :
    Along (step cfg codec) (Sound cfg codec) {} as ↔ Admitted (step cfg codec) (fun s a =>
          (step cfg codec s a).isSome = true → s.writer = .running →
            Modest cfg codec s a) {} as := by
  refine along_iff_admitted (I := Inv cfg codec) ?_ ?_ ?_ as {} inv_start
  · exact fun s hi => hi.sound
  · intro s a t hi hok hs
    exact inv_step hi (hok (by rw [hs]; rfl)) hs
  intro s a hi hno
  obtain ⟨hsome, hno⟩ := Classical.not_imp.mp hno
  obtain ⟨hrun, hno⟩ := Classical.not_imp.mp hno
  obtain ⟨t, hs⟩ := Option.isSome_iff_exists.mp hsome
  obtain ⟨f, hf, hlarge⟩ := not_fits_of_not_modest hs hrun hno
  exact ⟨t, hs, fun hsound => hlarge (hsound.fits f hf)⟩

/-! ## A long message -/

/-- A server with a small frame limit. -/
def smallFrames : ServerConfig := { frame := { maxFrameBytes := 64 } }

/-- A refusal of the service with a text of 69 bytes. -/
def longStatus : Status := ⟨.notFound,
  "the requested model is not installed on this worker, install it first"⟩

/-- Two calls are in flight; the service refuses one of them, its answer reaches
    the writer, and then the other call is answered. -/
def longMessage : List (Act Bytes) :=
  [request 1, request 2, .answer 0 (.error longStatus), .write, .answer 1 (.response [])]

/-- The writer has stopped at the first answer, and the second is lost. -/
theorem longMessage_ends : smallFrames.validate = .ok ()
    ∧ ∃ t, run (step smallFrames rawCodec) {} longMessage = some t
      ∧ t.writer = .stopped (.frameTooLarge 79 64)
      ∧ t.written = [] ∧ t.outgoing = []
      ∧ (t.handlers.map Handler.progress) = [.answered, .answered] := by
  exact ⟨rfl, _, rfl, rfl, rfl, rfl, rfl⟩

end Answers
