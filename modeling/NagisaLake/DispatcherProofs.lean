import NagisaLake.FlightProofs

/-! # The client's dispatcher — one result for each call

`exactly_once` reads all it claims off the log and the calls as they are: why
a call has the result it has, that none is left waiting, that deadlines and
requests in flight go together, and when an id is cancelled.

Two things can go wrong.  A call that has a place in the queue puts its
request there even after the dispatcher has closed and emptied it, and then
nobody ever reads it (`unread_call_waits`).  And a response whose id is not
in flight answers nobody and may come before the request; the call can still
be cancelled after it. -/

namespace Dispatcher

open KeyedTable Runs Framing Wire List Option

/-! ## What is claimed -/

/-- What a call comes back with, as soon as that is settled. -/
def resultOf (s : Client) (c : Call) : Option CallResult :=
  match c.stage with
  | .finished r => some r
  | .waiting =>
    match c.slot with
    | .empty => none
    | .sent r => some r
    | .dropped => some .shutdown
  | .sending => if s.pc.closed then some .shutdown else none
  | .reserved | .dropping | .dropped => none

/-- Why a call has this result: the first response under its id that was
    consumed while it was in flight, its deadline, the error the dispatcher
    ended with, or that the dispatcher takes nothing more. -/
def Explained (s : Client) (i : Nat) (c : Call) : CallResult → Prop
  | .response code body => ∃ before after,
      s.log = before ++ .consumed c.id code body (some i) :: after
        ∧ ∀ code' body' j, .consumed c.id code' body' (some j) ∉ before
  | .deadlineExceeded => c.deadline < s.now + 1000
  | .connection e => s.pc.error = some e
  | .shutdown => s.pc.closed = true

/-- A call is back with its result, or its next step brings it back. -/
def Returned (cfg : ClientConfig) (s : Client) (i : Nat) (c : Call) (r : CallResult) : Prop :=
  c.stage = .finished r ∨ ∃ a t, step cfg s a = some t
    ∧ (t.calls[i]?).map Call.stage = some (.finished r)

/-- The dispatcher at any moment. -/
structure Exact (cfg : ClientConfig) (s : Client) : Prop where
  explained : ∀ (i : Nat) (c : Call) (r : CallResult), s.calls[i]? = some c →
    resultOf s c = some r → Explained s i c r ∧ Returned cfg s i c r
  settled : (∃ e, s.pc = .ended e) → ∀ c ∈ s.calls,
    c.stage ≠ .dropping → c.stage ≠ .dropped → resultOf s c ≠ none
  bounded : s.inFlight.rows.length ≤ cfg.maxInFlightRequests
  listed : s.pc.running = true → (s.deadlines.rows.map Deadline.id).Nodup
      ∧ ∀ id, id ∈ s.deadlines.rows.map Deadline.id ↔ id ∈ s.inFlight.rows.map Pending.id
  cancels : ∀ id before after, s.log = before ++ .queued (.cancel id) :: after →
      (∃ timeoutMicros traceId body, .queued (.request id timeoutMicros traceId body) ∈ before)
      ∧ .queued (.cancel id) ∉ before
      ∧ ∀ code body call, .consumed id code body call ∉ before

/-- Once the dispatcher is gone, no call has a place in its queue without a request in it. -/
def Orderly (s : Client) : Prop :=
  s.pc.gone = true → ∀ c ∈ s.calls, c.stage ≠ .reserved

/-- A response is consumed only after the request of its id was queued. -/
def Asked (log : List Event) : Prop :=
  ∀ (n : Nat) (id : UInt64) (code : Option Code) (body : Bytes) (call : Option Nat),
    log[n]? = some (.consumed id code body call) → ∃ timeoutMicros traceId body,
      .queued (.request id timeoutMicros traceId body) ∈ log.take n

section Results

variable {cfg : ClientConfig} {s t : Client} {i j : Nat} {c c' d : Call}

/-! ## What is never taken back -/

/-- No call goes back, and no request is put where nobody reads it. -/
def Forward (s t : Client) : Prop := Later s.calls t.calls ∧ t.unread = s.unread

theorem forward_resolve (s : Client) (i : Nat) (r : CallResult) : Forward s (s.resolve i r) := by
  refine ⟨?_, rfl⟩
  cases hc : s.calls[i]? with
  | none =>
    have hsame : (s.resolve i r).calls = s.calls :=
      modify_eq_self (getElem?_eq_none_iff.mp hc)
    rw [hsame]
    exact later_refl _
  | some c =>
    rw [resolve_eq_set hc]
    exact later_slot hc _

theorem forward_crash (s : Client) : Forward s s.crash := ⟨later_crash s, rfl⟩

variable {a : Act}

theorem forward_selectStep (hs : selectStep cfg s a = some t) : Forward s t := by
  rw [selectStep.eq_def] at hs
  split at hs
  · split at hs
    · split at hs
      · next i rest _ =>
        obtain ⟨c, hc, rfl⟩ := map_eq_some_iff.mp hs
        rw [admitRequest]
        split_ifs
        · exact ⟨later_slot hc _, rfl⟩
        · exact forward_resolve { s with requests := rest } i _
        · exact ⟨later_refl _, rfl⟩
      · obtain ⟨-, rfl⟩ := of_guard_not hs
        exact ⟨later_refl _, rfl⟩
    · cases hs
  · split at hs
    · next id rest _ =>
      cases hs
      rw [cancelRequest]
      split
      · exact ⟨later_refl _, rfl⟩
      split
      · exact ⟨later_refl _, rfl⟩
      · exact forward_crash { s with cancellations := rest }
    · cases hs
  · cases hs
    rw [receive.eq_def]
    split
    · next f =>
      split
      · exact ⟨later_refl _, rfl⟩
      next p _ =>
      split
      · exact forward_resolve ((s.land f.id).unlist p.call) _ _
      · exact forward_crash s
    all_goals exact ⟨later_refl _, rfl⟩
  · split at hs
    · next d _ =>
      obtain ⟨-, rfl⟩ := of_guard hs
      rw [expireRequest]
      split
      · exact ⟨later_refl _, rfl⟩
      · exact forward_resolve ((s.unlist d.key).land d.id) _ _
    · cases hs
  · cases hs
    exact ⟨later_refl _, rfl⟩
  · obtain ⟨-, rfl⟩ := of_guard hs
    exact ⟨later_refl _, rfl⟩
  · cases hs

theorem forward_otherStep (hs : otherStep s a = some t) : Forward s t := by
  rw [otherStep.eq_def] at hs
  split at hs
  case h_3 id =>
    split at hs
    · cases hs
      exact forward_resolve (s.land id) _ _
    · cases hs
  case h_5 =>
    split at hs
    · next rest _ _ =>
      cases hs
      exact forward_resolve { s with requests := rest } _ _
    · cases hs
  case h_7 =>
    split at hs
    · obtain ⟨c, hc, rfl⟩ := map_eq_some_iff.mp hs
      exact ⟨later_slot hc _, rfl⟩
    · cases hs
  case h_4 =>
    split at hs
    · obtain ⟨-, rfl⟩ := of_guard hs
      exact ⟨later_refl _, rfl⟩
    · cases hs
  case h_9 => cases hs
  all_goals
    split at hs
    · cases hs
      exact ⟨later_refl _, rfl⟩
    · cases hs

theorem later_step (hs : step cfg s a = some t) : Later s.calls t.calls
      ∧ (t.unread = s.unread ∨ (s.pc.gone = true ∧ ∃ c ∈ s.calls, c.stage = .reserved)) := by
  cases a with rw [step] at hs
  | call deadline traceId body =>
    obtain ⟨-, rfl⟩ := of_guard hs
    exact ⟨later_append _ _, .inl rfl⟩
  | release =>
    obtain ⟨-, rfl⟩ := of_guard hs
    exact ⟨later_refl _, .inl rfl⟩
  | tick n =>
    cases hs
    exact ⟨later_refl _, .inl rfl⟩
  | crash =>
    split at hs
    · cases hs
    · cases hs
      exact ⟨later_crash s, .inl rfl⟩
  | reserve i | enqueue i | refused i | take i | drop i | cancel i =>
    obtain ⟨c, hc, hs⟩ := bind_eq_some_iff.mp hs
    exact (later_callStep hc hs).imp_right (Or.imp_right fun h => ⟨h.1, c, mem_of_getElem? hc, h.2⟩)
  | recvRequest | recvCancellation | receive event | expire key
  | writerEnded e | finish =>
    split at hs
    · exact (forward_selectStep hs).imp_right .inl
    · cases hs
  | sent | sendFailed | drain id | closeRequests | drainRequest | ret | discard | leave =>
    exact (forward_otherStep hs).imp_right .inl

end Results

/-! ## The claim from the invariant -/

section Claim

variable {cfg : ClientConfig} {s t : Client} {i : Nat} {c : Call}

/-- After a request, an id has one more event at most. -/
theorem Course.before {running : Bool} {flying : Option Pending}
    {about : Option Kind} {before after : List Kind} {k : Kind}
    (h : Course running flying about (before ++ k :: after))
    (hk : k ≠ .request) : before = [.request] := by
  have hcases : ∀ rest : List Kind, rest.length ≤ 1 →
      before ++ k :: after = .request :: rest → before = [.request] := by
    intro rest hrest heq
    cases before with
    | nil => exact absurd (cons.inj heq).1 hk
    | cons b before =>
      rw [cons_append] at heq
      obtain ⟨rfl, htail⟩ := cons.inj heq
      rw [← htail, length_append, length_cons] at hrest
      rw [eq_nil_of_length_eq_zero (by omega : before.length = 0)]
  have hnil : before ++ k :: after ≠ [] := by simp
  cases flying with
  | some p =>
    rcases h with ⟨h, -⟩ | ⟨h, -⟩
    · exact hcases [] (Nat.zero_le _) h
    · exact absurd h hnil
  | none =>
    rcases h with ⟨h, -⟩ | ⟨-, h | ⟨h, -⟩ | h | h⟩
    · exact hcases [] (Nat.zero_le _) h
    · exact absurd h hnil
    · exact hcases [] (Nat.zero_le _) h
    · exact hcases [.answer] (Nat.le_refl _) h
    · exact hcases [.cancel] (Nat.le_refl _) h

theorem Inv.before (hi : Inv cfg s) (id : UInt64) {before after : List Event}
    {e : Event} {k : Kind} (hlog : s.log = before ++ e :: after)
    (he : kindOf id e = some k) (hk : k ≠ .request) :
    trace before id = [.request] := by
  have htrace : trace s.log id = trace before id ++ k :: trace after id := by
    rw [hlog, trace, filterMap_append, filterMap_cons, he]
    rfl
  have hcourse := hi.course id
  rw [htrace] at hcourse
  exact hcourse.before hk

theorem not_mem_of_trace {id : UInt64} {log : List Event} {e : Event}
    {k : Kind} (h : trace log id = [.request]) (he : kindOf id e = some k)
    (hk : k ≠ .request) : e ∉ log := by
  intro hmem
  have : k ∈ trace log id := mem_filterMap.mpr ⟨e, hmem, he⟩
  rw [h, mem_singleton] at this
  exact hk this

theorem request_of_trace {id : UInt64} {log : List Event}
    (h : .request ∈ trace log id) : ∃ timeoutMicros traceId body,
      .queued (.request id timeoutMicros traceId body) ∈ log := by
  obtain ⟨e, hmem, he⟩ := mem_filterMap.mp h
  rw [kindOf.eq_def] at he
  split at he
  · next timeoutMicros traceId body =>
    split at he
    · next heq =>
      subst heq
      exact ⟨_, _, _, hmem⟩
    · cases he
  · split at he <;> cases he
  · split at he <;> cases he
  · cases he

theorem returned_of_step {r : CallResult} (hc : s.calls[i]? = some c)
    (hs : (step cfg s a).map Client.calls
      = some (s.calls.set i { c with stage := .finished r, closed := true })) :
    Returned cfg s i c r := by
  obtain ⟨t, ht, hcalls⟩ := map_eq_some_iff.mp hs
  exact .inr ⟨a, t, ht, by rw [hcalls, set_self hc]; rfl⟩

section

variable (hi : Inv cfg s)
include hi

/-- What a call comes back with is what its channel holds, or that the dispatcher takes nothing
    more, and it is there to be taken. -/
theorem Inv.result (hc : s.calls[i]? = some c)
    {r : CallResult} (hr : resultOf s c = some r) :
    (c.slot = .sent r ∨ (r = .shutdown ∧ s.pc.closed = true)) ∧ Returned cfg s i c r := by
  have hg := hi.calls i c hc
  rw [resultOf] at hr
  cases hstage : c.stage with rw [hstage] at hr
  | finished r' =>
    obtain rfl := some.inj hr
    exact ⟨hg.finished r' hstage, .inl hstage⟩
  | waiting =>
    cases hslot : c.slot with rw [hslot] at hr
    | empty =>
      cases hr
    | sent r' =>
      cases hr
      refine ⟨.inl rfl, returned_of_step (a := .take i) hc ?_⟩
      simp [step, hc, callStep, hstage, hslot, Client.setCall]
    | dropped =>
      cases hr
      refine ⟨.inr ⟨rfl, hg.dropped hslot hstage⟩, returned_of_step (a := .take i) hc ?_⟩
      simp [step, hc, callStep, hstage, hslot, Client.setCall]
  | sending =>
    obtain ⟨hcl, rfl⟩ := of_guard hr
    refine ⟨.inr ⟨rfl, hcl⟩, returned_of_step (a := .refused i) hc ?_⟩
    simp [step, hc, callStep, hstage, hcl, Client.setCall]
  | reserved | dropping | dropped =>
    cases hr

theorem Inv.explained (hc : s.calls[i]? = some c)
    {r : CallResult} (hr : resultOf s c = some r) : Explained s i c r := by
  rcases (hi.result hc hr).1 with hslot | ⟨rfl, hcl⟩
  · have hsent := (hi.calls i c hc).sent r hslot
    cases r with
    | response code body =>
      obtain ⟨before, after, hlog⟩ := append_of_mem hsent
      refine ⟨before, after, hlog, ?_⟩
      intro code' body' j
      have hbefore := hi.before c.id hlog (if_pos rfl) nofun
      exact not_mem_of_trace hbefore (if_pos rfl) nofun
    | deadlineExceeded | connection e => exact hsent
    | shutdown => exact hsent.elim
  · exact hcl

/-- Once the dispatcher is gone in order, nobody waits. -/
theorem Inv.settled (hunread : s.unread = []) {e : Option ConnectionError} (he : s.pc = .ended e)
    (hc : s.calls[i]? = some c) (hreserved : c.stage ≠ .reserved)
    (hdropping : c.stage ≠ .dropping) (hdropped : c.stage ≠ .dropped) :
    resultOf s c ≠ none := by
  have hcl : s.pc.closed = true := by
    rw [he]
    rfl
  rw [resultOf]
  cases hstage : c.stage with
  | finished r => exact nofun
  | waiting =>
    cases hslot : c.slot with
    | empty =>
      -- an unanswered call is in the queue or in the table: both are empty
      rcases (hi.calls i c hc).pending hstage hslot with hq | hq | hf
      · rw [hi.drained e he] at hq
        cases hq
      · rw [hunread] at hq
        cases hq
      have hmem := Table.mem_of_find? hf
      rw [hi.emptied hcl] at hmem
      cases hmem
    | sent r | dropped => exact nofun
  | sending =>
    simp only [hcl, if_true]
    exact nofun
  | reserved => exact absurd hstage hreserved
  | dropping => exact absurd hstage hdropping
  | dropped => exact absurd hstage hdropped

/-- Deadlines and requests in flight go together. -/
theorem Inv.listed (hrun : s.pc.running = true) :
    (s.deadlines.rows.map Deadline.id).Nodup ∧ ∀ id, id ∈ s.deadlines.rows.map Deadline.id
          ↔ id ∈ s.inFlight.rows.map Pending.id := by
  constructor
  · refine List.Nodup.map_on ?_ (List.Nodup.of_map _ s.deadlines.nodup)
    intro d hd d' hd' heq
    obtain ⟨⟨p, hp, hpk, hpid⟩, -⟩ := hi.timed hrun d hd
    obtain ⟨⟨p', hp', hpk', hpid'⟩, -⟩ := hi.timed hrun d' hd'
    have hpp : p = p' := inj_on_of_nodup_map s.inFlight.nodup hp hp'
      (hpid.trans (heq.trans hpid'.symm))
    subst hpp
    exact inj_on_of_nodup_map s.deadlines.nodup hd hd' (hpk.symm.trans hpk')
  · intro id
    constructor
    · intro hid
      obtain ⟨d, hd, rfl⟩ := mem_map.mp hid
      obtain ⟨⟨p, hp, -, hpid⟩, -⟩ := hi.timed hrun d hd
      exact mem_map.mpr ⟨p, hp, hpid⟩
    · intro hid
      obtain ⟨p, hp, rfl⟩ := mem_map.mp hid
      obtain ⟨d, hd, -, hdid⟩ := hi.flown hrun p hp
      exact mem_map.mpr ⟨d, hd, hdid⟩

theorem Inv.exact (hunread : s.unread = []) (hin : Orderly s) (hasked : Asked s.log) :
    Exact cfg s where
  explained := fun _ _ _ hc hr => ⟨hi.explained hc hr, (hi.result hc hr).2⟩
  settled := by
    rintro ⟨e, he⟩ c hmem hdropping hdropped
    obtain ⟨i, hc⟩ := getElem?_of_mem hmem
    exact hi.settled hunread he hc (hin (by rw [he]; rfl) c hmem) hdropping hdropped
  bounded := hi.short
  listed := hi.listed
  cancels := by
    intro id before after hlog
    have htrace := hi.before id hlog (if_pos rfl) nofun
    refine ⟨request_of_trace ?_, not_mem_of_trace htrace (if_pos rfl) nofun, ?_⟩
    · rw [htrace]
      exact mem_singleton.mpr rfl
    intro code body call hmem
    cases call with
    | some j =>
      have hkind : kindOf id (.consumed id code body (some j)) = some .answer := if_pos rfl
      exact not_mem_of_trace htrace hkind nofun hmem
    | none =>
      -- it came after the request, so the course of the id was over by then
      obtain ⟨n, hn⟩ := getElem?_of_mem hmem
      have hlt := (List.getElem?_eq_some_iff.mp hn).1
      have hget : s.log[n]? = some (.consumed id code body none) := by
        rw [hlog, getElem?_append_left hlt]
        exact hn
      have htake : s.log.take n = before.take n := by
        rw [hlog, take_append_of_le_length (Nat.le_of_lt hlt)]
      obtain ⟨timeoutMicros, traceId, body', hreq⟩ := hasked n id code body none hget
      have hkind : kindOf id (.queued (.request id timeoutMicros traceId body')) = some .request :=
        if_pos rfl
      have hpart : .request ∈ trace (before.take n) id :=
        mem_filterMap.mpr ⟨_, htake ▸ hreq, hkind⟩
      have hshort : (trace (before.take n) id).length ≤ 1 := by
        have hsub := ((take_sublist n before).filterMap (kindOf id)).length_le
        have hlen : (trace before id).length = 1 := by rw [htrace]; rfl
        exact hlen ▸ hsub
      have hstray := hi.strays n id code body hget
      rw [htake] at hstray
      rcases hstray with hnil | htwo
      · rw [hnil] at hpart
        cases hpart
      · omega

end

theorem inv_start (cfg : ClientConfig) : Inv cfg {} where
  calls := fun _ _ h => nomatch h
  nextId := rfl
  once := nodup_nil
  queued := fun _ h => nomatch h
  flying := fun _ h => nomatch h
  known := by
    rintro id (h | h | h)
    all_goals exact absurd rfl h
  strays := fun _ _ _ _ h => nomatch h
  course := fun _ => .inr ⟨rfl, .inl rfl⟩
  cancelled := fun _ h => nomatch h
  flown := fun _ _ h => nomatch h
  timed := fun _ _ h => nomatch h
  short := Nat.zero_le _
  emptied := fun h => nomatch h
  drained := fun _ h => nomatch h
  refusing := fun h => nomatch h

theorem inv_run_start {as : List Act} (hrun : run (step cfg) {} as = some t)
    (hcalls : t.calls.length ≤ 2 ^ 64) : Inv cfg t := by
  -- calls are only added, so the bound held all along
  refine inv_run (I := fun s => s.calls.length ≤ 2 ^ 64 → Inv cfg s) ?_
    (fun _ => inv_start cfg) hrun hcalls
  intro s a u hI hs hlen
  have hlen' := (later_step hs).1.length_le.trans hlen
  exact inv_step (hI hlen') hlen' hs

/-- A call that is answered. -/
def answered : List Act :=
  [.call 5000000 default [], .reserve 0, .enqueue 0, .recvRequest, .sent,
    .receive (some (.frame ⟨1, none, [42]⟩)), .take 0]

/-- A response that comes before its request answers nobody; the call that then
    draws its id can still be cancelled. -/
theorem cancel_after_stray_response : ∃ as t before after,
    run (step {}) {} as = some t ∧ t.log = before ++ .queued (.cancel 1) :: after
      ∧ ∃ code body call, .consumed 1 code body call ∈ before :=
  ⟨[.receive (some (.frame ⟨1, none, []⟩)),
      .call 5000000 default [], .reserve 0, .enqueue 0, .recvRequest, .sent,
      .drop 0, .cancel 0, .recvCancellation, .sent],
    _, _, [], rfl, rfl, none, [], none, mem_cons_self⟩

end Claim

/-- **THE RIGHT CALL**: as long as ids do not repeat, what is in the table of requests in flight is
    a call with that id, and without an answer. -/
theorem in_flight_unanswered (cfg : ClientConfig) {as : List Act} {t : Client}
    (hrun : run (step cfg) {} as = some t) (hcalls : t.calls.length ≤ 2 ^ 64) :
    ∀ p ∈ t.inFlight.rows, ∃ c, t.calls[p.call]? = some c ∧ c.id = p.id ∧ c.slot = .empty :=
  (inv_run_start hrun hcalls).flying

/-- A call on its way. -/
theorem asked_unanswered : ∃ t c, run (step {}) {} (answered.take 5) = some t
    ∧ t.calls[0]? = some c ∧ c.slot = .empty := by
  have hrun : run (step {}) {} (answered.take 5) = some _ := rfl
  obtain ⟨c, hc, -, hslot⟩ := in_flight_unanswered {} hrun (by decide) _ (.head _)
  exact ⟨_, c, hrun, hc, hslot⟩

end Dispatcher
