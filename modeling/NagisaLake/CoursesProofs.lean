import NagisaLake.ClientProofs
import NagisaLake.PoolProofs

/-! # Courses — what the wire sees of one call

Under one id the wire sees a request, and after it an answer or a
cancellation, never both.  `Inv` ties that course to the table, the
deadlines, the queue and the call's own channel; each of its clauses has
the others on one side.

Ids are 64 bits wide and are drawn one after the other, so a call is known
by its id among the first `2 ^ 64`. -/

namespace Dispatcher

open KeyedTable Runs Framing Wire List
open Pools (set_cases append_cases)

/-! ## The course of an id -/

/-- What the wire sees of one call. -/
inductive Kind where
  | request
  | cancel
  | answer
  deriving DecidableEq

/-- The part an event has in the course of an id; a response under an id that
    was not in flight has none. -/
def kindOf (id : UInt64) : Event → Option Kind
  | .queued (.request id' _ _ _) => if id' = id then some .request else none
  | .queued (.cancel id') => if id' = id then some .cancel else none
  | .consumed id' _ _ (some _) => if id' = id then some .answer else none
  | .consumed _ _ _ none => none

/-- The course of an id so far. -/
def trace (log : List Event) (id : UInt64) : List Kind :=
  log.filterMap (kindOf id)

/-- What the dispatcher is about to do under an id. -/
def Pc.about (pc : Pc) (id : UInt64) : Option Kind :=
  match pc with
  | .sending f => kindOf id (.queued f)
  | _ => none

/-- The courses there are: an id in flight has been requested and no more; one
    that is not was answered, cancelled, or neither. -/
def Course (running : Bool) (flying : Option Pending) (about : Option Kind)
    (course : List Kind) : Prop :=
  match flying with
  | some _ => (course = [.request] ∧ about = none)
      ∨ (course = [] ∧ (about = some .request ∨ (running = false ∧ about = none)))
  | none => (course = [.request] ∧ about = some .cancel)
      ∨ (about = none ∧ (course = [] ∨ (course = [.request] ∧ running = false)
          ∨ course = [.request, .answer] ∨ course = [.request, .cancel]))

/-- A response that met no call came before the request of its id, or after the course of its id. -/
def Strays (log : List Event) : Prop :=
  ∀ (n : Nat) (id : UInt64) (code : Option Code) (body : Bytes),
    log[n]? = some (.consumed id code body none) →
      trace (log.take n) id = [] ∨ 2 ≤ (trace (log.take n) id).length

/-- The id has been seen: it is in the table, about to be sent or in the log. -/
def Touched (s : Client) (id : UInt64) : Prop :=
  s.inFlight.find? id ≠ none ∨ s.pc.about id ≠ none ∨ trace s.log id ≠ []

/-- The part of `Explained` that a value in a channel has. -/
def Sent (s : Client) (i : Nat) (c : Call) : CallResult → Prop
  | .response code body => .consumed c.id code body (some i) ∈ s.log
  | .deadlineExceeded => c.deadline < s.now + 1000
  | .connection e => s.pc.error = some e
  | .shutdown => False

/-- The request has left the call. -/
def Stage.begun : Stage → Bool
  | .sending | .reserved => false
  | .waiting | .dropping | .dropped | .finished _ => true

/-- What is true of a call. -/
structure Good (s : Client) (i : Nat) (c : Call) : Prop where
  id : c.id = UInt64.ofNat (i + 1)
  fresh : c.stage.begun = false ∨ i ∈ s.requests → c.slot = .empty
  pending : c.stage = .waiting → c.slot = .empty →
    i ∈ s.requests ∨ i ∈ s.unread ∨ s.inFlight.find? c.id = some ⟨c.id, i⟩
  sent : ∀ r, c.slot = .sent r → Sent s i c r
  finished : ∀ r, c.stage = .finished r → c.slot = .sent r ∨ (r = .shutdown ∧ s.pc.closed = true)
  dropped : c.slot = .dropped → c.stage = .waiting → s.pc.closed = true
  closed : c.closed = true → c.stage ≠ .waiting ∧ c.stage.begun = true
  dropping : c.stage = .dropping → c.closed = true
  released : s.held = false → c.stage.over = true

/-- What every step keeps. -/
structure Inv (cfg : ClientConfig) (s : Client) : Prop where
  calls : ∀ (i : Nat) (c : Call), s.calls[i]? = some c → Good s i c
  nextId : s.nextId = UInt64.ofNat (s.calls.length + 1)
  once : s.requests.Nodup
  queued : ∀ i ∈ s.requests, ∃ c, s.calls[i]? = some c ∧ c.stage.begun = true
  flying : ∀ p ∈ s.inFlight.rows, ∃ c, s.calls[p.call]? = some c ∧ c.id = p.id ∧ c.slot = .empty
  known : ∀ id, Touched s id → ∃ (i : Nat) (c : Call),
    s.calls[i]? = some c ∧ c.id = id ∧ c.stage.begun = true ∧ i ∉ s.requests
  strays : Strays s.log
  course : ∀ id, Course s.pc.running (s.inFlight.find? id) (s.pc.about id) (trace s.log id)
  cancelled : ∀ id ∈ s.cancellations, ∃ (i : Nat) (c : Call),
    s.calls[i]? = some c ∧ c.id = id ∧ c.closed = true
  flown : s.pc.running = true → ∀ p ∈ s.inFlight.rows,
    ∃ d ∈ s.deadlines.rows, d.key = p.call ∧ d.id = p.id
  timed : s.pc.running = true → ∀ d ∈ s.deadlines.rows,
    (∃ p ∈ s.inFlight.rows, p.call = d.key ∧ p.id = d.id)
      ∧ ∃ c, s.calls[d.key]? = some c ∧ c.deadline = d.due
  short : s.inFlight.rows.length ≤ cfg.maxInFlightRequests
  emptied : s.pc.closed = true → s.inFlight.rows = []
  drained : ∀ e, s.pc = .ended e → s.requests = []
  refusing : s.accepting = false → s.held = false ∧ s.requests = []

section Steps

variable {cfg : ClientConfig} {s t : Client} {i j : Nat} {c c' d : Call}

/-! ### Small facts -/

variable {l : List Call} {requests : List Nat}

theorem set_self (hc : l[i]? = some c) : (l.set i c')[i]? = some c' := by
  rw [List.getElem?_set_self (List.getElem?_eq_some_iff.mp hc).1]

theorem set_other (h : l[j]? = some d) (hij : j ≠ i) : (l.set i c')[j]? = some d := by
  rwa [getElem?_set_ne (Ne.symm hij)]

theorem modify_eq_set (hc : l[i]? = some c) (f : Call → Call) : l.modify i f = l.set i (f c) := by
  ext1 j
  rw [getElem?_modify, getElem?_set]
  by_cases hij : i = j
  · subst hij
    rw [if_pos rfl, if_pos (List.getElem?_eq_some_iff.mp hc).1, hc]
    simp
  · rw [if_neg hij]
    simp [hij]

theorem set_same (hc : l[i]? = some c) : l.set i c = l := by
  obtain ⟨hlt, rfl⟩ := List.getElem?_eq_some_iff.mp hc
  exact set_getElem_self hlt

theorem resolve_eq_set (hc : s.calls[i]? = some c) (r : CallResult) :
    s.resolve i r = { s with calls := s.calls.set i (c.resolve r) } := by
  rw [Client.resolve, modify_eq_set hc]

/-- Ids differ as long as the counter has not come round. -/
theorem eq_of_id_eq (hi : i < 2 ^ 64) (hj : j < 2 ^ 64)
    (h : UInt64.ofNat (i + 1) = UInt64.ofNat (j + 1)) : i = j := by
  have hnat := congrArg UInt64.toNat h
  rw [UInt64.toNat_ofNat', UInt64.toNat_ofNat'] at hnat
  omega

theorem Inv.call_eq (hi : Inv cfg s) (hlen : s.calls.length ≤ 2 ^ 64)
    (hc : s.calls[i]? = some c) (hd : s.calls[j]? = some d)
    (hid : c.id = d.id) : i = j := by
  have hi' := (List.getElem?_eq_some_iff.mp hc).1
  have hj' := (List.getElem?_eq_some_iff.mp hd).1
  rw [(hi.calls i c hc).id, (hi.calls j d hd).id] at hid
  exact eq_of_id_eq (by omega) (by omega) hid

/-- A call that waits its turn has not been seen on the wire. -/
theorem Inv.untouched (hi : Inv cfg s) (hlen : s.calls.length ≤ 2 ^ 64)
    (hc : s.calls[i]? = some c) (hf : c.stage.begun = false ∨ i ∈ s.requests) :
    ¬ Touched s c.id := by
  intro ht
  obtain ⟨j, d, hd, hid, hstage, hreq⟩ := hi.known c.id ht
  obtain rfl := hi.call_eq hlen hc hd hid.symm
  cases hc.symm.trans hd
  cases hf with
  | inl h => cases h.symm.trans hstage
  | inr h => exact hreq h

/-- Nor is it in the table. -/
theorem Inv.call_ne (hi : Inv cfg s) (hlen : s.calls.length ≤ 2 ^ 64)
    (hc : s.calls[i]? = some c) (hf : c.stage.begun = false ∨ i ∈ s.requests)
    {p : Pending} (hp : p ∈ s.inFlight.rows) : p.call ≠ i := by
  intro hpi
  obtain ⟨d, hd, hid, -⟩ := hi.flying p hp
  rw [hpi] at hd
  cases hc.symm.trans hd
  refine hi.untouched hlen hc hf (.inl ?_)
  have hfind : s.inFlight.find? p.id = some p := Table.find?_of_mem hp
  rw [hid, hfind]
  exact nofun

variable {id : UInt64} {cancellations : List UInt64}

/-- The call of an entry in the table is the one with its id. -/
theorem Inv.find_call (hi : Inv cfg s) {p : Pending} (hp : s.inFlight.find? id = some p) :
    ∃ c, s.calls[p.call]? = some c ∧ c.id = id ∧ c.slot = .empty := by
  obtain ⟨c, hc, hid, hslot⟩ := hi.flying p (Table.mem_of_find? hp)
  exact ⟨c, hc, hid.trans (Table.key_of_find? hp), hslot⟩

theorem trace_concat (log : List Event) (e : Event) (id : UInt64) :
    trace (log ++ [e]) id = trace log id ++ (kindOf id e).toList := by
  cases h : kindOf id e with
  | none | some k => simp [trace, h]

theorem Strays.concat {log : List Event} (h : Strays log) {e : Event}
    (he : ∀ id code body, e = .consumed id code body none →
      trace log id = [] ∨ 2 ≤ (trace log id).length) :
    Strays (log ++ [e]) := by
  intro n id code body hn
  by_cases hlt : n < log.length
  · rw [getElem?_append_left hlt] at hn
    rw [take_append_of_le_length (Nat.le_of_lt hlt)]
    exact h n id code body hn
  · obtain ⟨hle, -⟩ := List.getElem?_eq_some_iff.mp hn
    rw [length_append, length_singleton] at hle
    obtain rfl : n = log.length := by omega
    rw [getElem?_concat_length] at hn
    rw [take_left']
    · exact he id code body (Option.some.inj hn)
    · rfl

/-! ### What a call sees of a step -/

/-- The history goes on. -/
structure Onward (s t : Client) : Prop where
  log : ∀ e ∈ s.log, e ∈ t.log
  now : s.now ≤ t.now
  error : ∀ e, s.pc.error = some e → t.pc.error = some e
  closed : s.pc.closed = true → t.pc.closed = true
  held : t.held = false → s.held = false

theorem Sent.onward {r : CallResult} (h : Sent s i c r) (ho : Onward s t)
    (hid : c'.id = c.id) (hdl : c'.deadline = c.deadline) :
    Sent t i c' r := by
  cases r with
  | response code body =>
    show .consumed c'.id code body (some i) ∈ t.log
    rw [hid]
    exact ho.log _ h
  | deadlineExceeded =>
    have h : c.deadline < s.now + 1000 := h
    have hnow := ho.now
    show c'.deadline < t.now + 1000
    omega
  | connection e => exact ho.error e h
  | shutdown => exact h

/-- A call that the step does not concern. -/
theorem Good.onward (hg : Good s i c) (ho : Onward s t) (hqueue : i ∈ t.requests ↔ i ∈ s.requests)
    (hunread : ∀ j ∈ s.unread, j ∈ t.unread)
    (hflight : t.inFlight.find? c.id = s.inFlight.find? c.id) :
    Good t i c :=
  { hg with
    fresh := fun h => hg.fresh (h.imp_right hqueue.mp)
    pending := by
      intro hstage hslot
      rw [hflight]
      exact (hg.pending hstage hslot).imp hqueue.mpr (Or.imp_left (hunread i))
    sent := fun r hr => (hg.sent r hr).onward ho rfl rfl
    finished := fun r hr =>
      (hg.finished r hr).imp_right fun h => ⟨h.1, ho.closed h.2⟩
    dropped := fun hslot hstage => ho.closed (hg.dropped hslot hstage)
    released := fun hno => hg.released (ho.held hno) }

/-- A call has not gone back, and one that is back stays back with the result it has. -/
structure Call.Later (d d' : Call) : Prop where
  id : d'.id = d.id
  deadline : d'.deadline = d.deadline
  begun : d.stage.begun = true → d'.stage.begun = true
  closed : d.closed = true → d'.closed = true
  finished : ∀ r, d.stage = .finished r → d'.stage = .finished r

/-- The calls of an earlier state are there, and none goes back. -/
def Later (l l' : List Call) : Prop :=
  ∀ (j : Nat) (d : Call), l[j]? = some d → ∃ d', l'[j]? = some d' ∧ d.Later d'

theorem Call.Later.refl (d : Call) : d.Later d :=
  ⟨rfl, rfl, fun h => h, fun h => h, fun _ h => h⟩

theorem later_refl (l : List Call) : Later l l :=
  fun _ d hd => ⟨d, hd, .refl d⟩

theorem Later.trans {l l' l'' : List Call} (h : Later l l') (h' : Later l' l'') : Later l l'' := by
  intro j d hd
  obtain ⟨d', hd', hl⟩ := h j d hd
  obtain ⟨d'', hd'', hl'⟩ := h' j d' hd'
  exact ⟨d'', hd'', hl'.id.trans hl.id, hl'.deadline.trans hl.deadline,
    fun hb => hl'.begun (hl.begun hb), fun hcl => hl'.closed (hl.closed hcl),
    fun r hr => hl'.finished r (hl.finished r hr)⟩

theorem Later.length_le {l l' : List Call} (h : Later l l') : l.length ≤ l'.length := by
  by_contra hlt
  obtain ⟨d', hd', -⟩ := h l'.length _ (List.getElem?_eq_getElem (by omega))
  exact Nat.lt_irrefl _ (List.getElem?_eq_some_iff.mp hd').1

theorem later_set (hc : l[i]? = some c) (h : c.Later c') : Later l (l.set i c') := by
  intro j d hd
  by_cases hij : j = i
  · subst hij
    cases hc.symm.trans hd
    exact ⟨c', set_self hc, h⟩
  · exact ⟨d, set_other hd hij, .refl d⟩

/-- What is in a call's channel says nothing about where the call is. -/
theorem later_slot (hc : l[i]? = some c) (slot : Slot) :
    Later l (l.set i { c with slot := slot }) :=
  later_set hc ⟨rfl, rfl, id, id, fun _ => id⟩

theorem later_append (l : List Call) (n : Call) : Later l (l ++ [n]) := by
  intro j d hd
  refine ⟨d, ?_, .refl d⟩
  rwa [List.getElem?_append_left (List.getElem?_eq_some_iff.mp hd).1]

theorem Inv.known_later (hi : Inv cfg s) {calls : List Call} (hl : Later s.calls calls)
    (hreq : ∀ (j : Nat) (d : Call), s.calls[j]? = some d →
      d.stage.begun = true → j ∈ requests → j ∈ s.requests)
    (ht : Touched s id) : ∃ (i : Nat) (c : Call),
      calls[i]? = some c ∧ c.id = id ∧ c.stage.begun = true ∧ i ∉ requests := by
  obtain ⟨j, d, hd, hid, hstage, hq⟩ := hi.known id ht
  obtain ⟨d', hd', hlater⟩ := hl j d hd
  exact ⟨j, d', hd', hlater.id.trans hid, hlater.begun hstage, fun h =>
    hq (hreq j d hd hstage h)⟩

theorem Inv.queued_later (hi : Inv cfg s) {calls : List Call} (hl : Later s.calls calls)
    (hq : i ∈ s.requests) : ∃ c, calls[i]? = some c ∧ c.stage.begun = true := by
  obtain ⟨d, hd, hstage⟩ := hi.queued i hq
  obtain ⟨d', hd', hlater⟩ := hl i d hd
  exact ⟨d', hd', hlater.begun hstage⟩

theorem Inv.cancelled_later (hi : Inv cfg s) {calls : List Call}
    (hl : Later s.calls calls) (hid : id ∈ s.cancellations) :
    ∃ (i : Nat) (c : Call), calls[i]? = some c ∧ c.id = id ∧ c.closed = true := by
  obtain ⟨j, d, hd, hdid, hcl⟩ := hi.cancelled id hid
  obtain ⟨d', hd', hlater⟩ := hl j d hd
  exact ⟨j, d', hd', hlater.id.trans hdid, hlater.closed hcl⟩

theorem due_later {l' : List Call} (hl : Later l l') {key due : Nat}
    (h : ∃ c, l[key]? = some c ∧ c.deadline = due) :
    ∃ c, l'[key]? = some c ∧ c.deadline = due := by
  obtain ⟨d, hd, hdue⟩ := h
  obtain ⟨d', hd', hlater⟩ := hl key d hd
  exact ⟨d', hd', hlater.deadline.trans hdue⟩

/-! ### A call's own steps -/

theorem inv_call (hi : Inv cfg s) (hheld : s.held = true) (deadline : Nat)
    (traceId : TraceId) (body : Bytes) :
    Inv cfg { s with
      calls := s.calls ++ [newCall s deadline traceId body]
      nextId := s.nextId + 1 } := by
  have hl := later_append s.calls (newCall s deadline traceId body)
  exact { hi with
    calls := by
      intro i c hc
      cases append_cases hc with
      | inl h =>
        exact (hi.calls i c h).onward ⟨fun _ => id, Nat.le_refl _,
          fun _ => id, id, id⟩ Iff.rfl (fun _ => id) rfl
      | inr h =>
        obtain ⟨rfl, rfl⟩ := h
        exact {
          id := hi.nextId
          fresh := fun _ => rfl
          pending := fun h => nomatch h
          sent := fun _ h => nomatch h
          finished := fun _ h => nomatch h
          dropped := fun h => nomatch h
          closed := fun h => nomatch h
          dropping := fun h => nomatch h
          released := fun h => nomatch hheld.symm.trans h }
    nextId := by
      rw [hi.nextId, length_append, length_singleton, UInt64.ofNat_add (s.calls.length + 1) 1]
      rfl
    queued := fun i hq => hi.queued_later hl hq
    flying := by
      intro p hp
      obtain ⟨c, hc, h⟩ := hi.flying p hp
      refine ⟨c, ?_, h⟩
      rwa [List.getElem?_append_left (List.getElem?_eq_some_iff.mp hc).1]
    known := fun id ht => hi.known_later hl (fun _ _ _ _ h => h) ht
    cancelled := fun id hid => hi.cancelled_later hl hid
    timed := fun hrun d hd =>
      ⟨(hi.timed hrun d hd).1, due_later hl (hi.timed hrun d hd).2⟩ }

/-- What a step of a call's own task does to it. -/
structure Own (s : Client) (i : Nat) (c c' : Call) (requests unread : List Nat)
    (cancellations : List UInt64) : Prop where
  same : c'.id = c.id ∧ c'.deadline = c.deadline ∧ c'.slot = c.slot
  live : c.stage.over = false
  joins : requests = s.requests ∨ (c.stage.begun = false ∧ c'.stage.begun = true
    ∧ s.pc.gone = false ∧ requests = s.requests ++ [i])
  kept : ∀ j ∈ s.unread, j ∈ unread
  waits : c'.stage = .waiting → c.stage.begun = false ∧ (i ∈ requests ∨ i ∈ unread)
  finished : ∀ r, c'.stage = .finished r → c.slot = .sent r ∨ (r = .shutdown ∧ s.pc.closed = true)
  closed : c'.closed = true → c'.stage ≠ .waiting ∧ c'.stage.begun = true
  dropping : c'.stage = .dropping → c'.closed = true
  cancels : ∀ id ∈ cancellations, id ∈ s.cancellations ∨ (id = c.id ∧ c'.closed = true)

variable {unread : List Nat}

theorem Own.mem_requests (ho : Own s i c c' requests unread cancellations) (hj : j ∈ requests) :
    j ∈ s.requests ∨ (j = i ∧ c.stage.begun = false ∧ c'.stage.begun = true) := by
  cases ho.joins with
  | inl h => exact .inl (h ▸ hj)
  | inr h =>
    rw [h.2.2.2, mem_append, mem_singleton] at hj
    exact hj.imp_right fun hji => ⟨hji, h.1, h.2.1⟩

theorem Own.mem_of_mem (ho : Own s i c c' requests unread cancellations) (hj : j ∈ s.requests) :
    j ∈ requests := by
  cases ho.joins with
  | inl h => exact h ▸ hj
  | inr h =>
    rw [h.2.2.2]
    exact mem_append_left _ hj

/-- The call itself after such a step. -/
theorem Own.good (ho : Own s i c c' requests unread cancellations) (hg : Good s i c)
    (hl : c.Later c') (hheld : s.held = true) (calls : List Call) :
    Good { s with
      calls := calls
      requests := requests
      unread := unread
      cancellations := cancellations } i c' := by
  obtain ⟨hid, hdl, hslot⟩ := ho.same
  exact {
    id := hid.trans hg.id
    fresh := by
      intro hf
      rw [hslot]
      apply hg.fresh
      cases hf with
      | inl h =>
        refine .inl (eq_false_of_ne_true fun hb => ?_)
        cases h.symm.trans (hl.begun hb)
      | inr h => exact (ho.mem_requests h).symm.imp_left fun hj => hj.2.1
    pending := fun hstage _ => (ho.waits hstage).2.imp_right .inl
    sent := by
      intro r hr
      rw [hslot] at hr
      exact (hg.sent r hr).onward ⟨fun _ => id, Nat.le_refl _, fun _ => id, id, id⟩ hid hdl
    finished := by
      intro r hr
      rw [hslot]
      exact ho.finished r hr
    dropped := by
      intro hdrop hstage
      rw [hslot, hg.fresh (.inl (ho.waits hstage).1)] at hdrop
      cases hdrop
    closed := ho.closed
    dropping := ho.dropping
    released := fun h => Bool.noConfusion (hheld.symm.trans h) }

theorem Inv.own (hi : Inv cfg s) (c' : Call) (hc : s.calls[i]? = some c)
    (hl : Later s.calls (s.calls.set i c'))
    (ho : Own s i c c' requests unread cancellations) :
    Inv cfg { s with
      calls := s.calls.set i c'
      requests := requests
      unread := unread
      cancellations := cancellations } := by
  obtain ⟨hid, -, hslot⟩ := ho.same
  have hg := hi.calls i c hc
  have hheld : s.held = true := by
    by_contra hno
    have hover := hg.released (eq_false_of_ne_true hno)
    rw [ho.live] at hover
    cases hover
  exact { hi with
    calls := by
      intro j d hd
      cases set_cases hd with
      | inl h =>
        obtain ⟨rfl, rfl⟩ := h
        obtain ⟨d', hd', hlater⟩ := hl j c hc
        cases hd.symm.trans hd'
        exact ho.good hg hlater hheld _
      | inr h =>
        refine (hi.calls j d h.2).onward ⟨fun _ => id, Nat.le_refl _, fun _ => id, id, id⟩
          ⟨fun hj => ?_, ho.mem_of_mem⟩ ho.kept rfl
        exact (ho.mem_requests hj).resolve_right fun hji => h.1 hji.1
    nextId := by
      rw [length_set]
      exact hi.nextId
    once := by
      cases ho.joins with
      | inl h => rw [h]; exact hi.once
      | inr h =>
        rw [h.2.2.2]
        refine nodup_append.mpr ⟨hi.once, nodup_singleton i, ?_⟩
        intro a ha b hb hab
        rw [mem_singleton] at hb
        subst hb hab
        obtain ⟨d, hd, hstage⟩ := hi.queued a ha
        cases hc.symm.trans hd
        cases h.1.symm.trans hstage
    queued := by
      intro j hj
      cases ho.mem_requests hj with
      | inl h => exact hi.queued_later hl h
      | inr h =>
        obtain ⟨rfl, -, hnew⟩ := h
        exact ⟨c', set_self hc, hnew⟩
    flying := by
      intro p hp
      obtain ⟨d, hd, hpid, hpslot⟩ := hi.flying p hp
      by_cases hpi : p.call = i
      · rw [hpi] at hd ⊢
        cases hc.symm.trans hd
        exact ⟨c', set_self hc, hid.trans hpid, hslot.trans hpslot⟩
      · exact ⟨d, set_other hd hpi, hpid, hpslot⟩
    known := by
      intro id ht
      refine hi.known_later hl ?_ ht
      intro j d hd hstage hj
      refine (ho.mem_requests hj).resolve_right ?_
      rintro ⟨rfl, hsend, -⟩
      cases hc.symm.trans hd
      cases hsend.symm.trans hstage
    cancelled := by
      intro id hid'
      cases ho.cancels id hid' with
      | inl hold => exact hi.cancelled_later hl hold
      | inr hnew => exact ⟨i, c', set_self hc, hid.trans hnew.1.symm, hnew.2⟩
    timed := fun hrun e he =>
      ⟨(hi.timed hrun e he).1, due_later hl (hi.timed hrun e he).2⟩
    drained := by
      intro e he
      cases ho.joins with
      | inl h => rw [h]; exact hi.drained e he
      | inr h =>
        have hopen := h.2.2.1
        rw [show s.pc = .ended e from he] at hopen
        cases hopen
    refusing := fun hno => nomatch hheld.symm.trans (hi.refusing hno).1 }

/-- What a step of a call's own task does: a future that is over takes none, and a request goes
    where nobody reads it only when the dispatcher is gone. -/
theorem later_callStep {a : Act} (hc : s.calls[i]? = some c) (hs : callStep cfg s i c a = some t) :
    Later s.calls t.calls ∧ (t.unread = s.unread ∨ (s.pc.gone = true ∧ c.stage = .reserved)) := by
  rw [callStep.eq_def] at hs
  split at hs
  · obtain ⟨hgo, rfl⟩ := of_guard hs
    refine ⟨later_set hc ⟨rfl, rfl, ?_, id, ?_⟩, .inl rfl⟩
    all_goals simp [hgo.1, Stage.begun]
  · obtain ⟨hgo, rfl⟩ := of_guard hs
    refine ⟨later_set hc ⟨rfl, rfl, fun _ => rfl, id, by simp [hgo]⟩, ?_⟩
    by_cases hgone : s.pc.gone = true
    · exact .inr ⟨hgone, hgo⟩
    · exact .inl (if_neg hgone)
  · obtain ⟨hgo, rfl⟩ := of_guard hs
    exact ⟨later_set hc ⟨rfl, rfl, fun _ => rfl, fun _ => rfl, by simp [hgo.1]⟩, .inl rfl⟩
  · split at hs
    · next hwait =>
      split at hs
      · cases hs
      all_goals
        cases hs
        exact ⟨later_set hc ⟨rfl, rfl, fun _ => rfl, fun _ => rfl, by simp [hwait]⟩, .inl rfl⟩
    · cases hs
  · obtain ⟨hgo, rfl⟩ := of_guard hs
    refine ⟨later_set hc ⟨rfl, rfl, fun _ => rfl, fun _ => rfl, ?_⟩, .inl rfl⟩
    intro r hr
    simp [hr] at hgo
  · obtain ⟨hgo, rfl⟩ := of_guard hs
    exact ⟨later_set hc ⟨rfl, rfl, fun _ => rfl, id, by simp [hgo]⟩, .inl rfl⟩
  · cases hs

theorem inv_callStep {a : Act} (hi : Inv cfg s) (hc : s.calls[i]? = some c)
    (hs : callStep cfg s i c a = some t) : Inv cfg t := by
  have hl := (later_callStep hc hs).1
  rw [callStep.eq_def] at hs
  split at hs
  · -- a place in the queue
    obtain ⟨hgo, rfl⟩ := of_guard hs
    refine hi.own { c with stage := .reserved } hc hl
      ⟨⟨rfl, rfl, rfl⟩, ?_, .inl rfl, fun _ => id, nofun, nofun, ?_, nofun, fun _ h => .inl h⟩
    · rw [hgo.1]
      rfl
    · intro hcl
      have hbegun := ((hi.calls i c hc).closed hcl).2
      rw [hgo.1] at hbegun
      cases hbegun
  · -- the request goes there, or where nobody reads it
    obtain ⟨hgo, rfl⟩ := of_guard hs
    have hnew : c.stage.begun = false := by rw [hgo]; rfl
    refine hi.own { c with stage := .waiting } hc hl
      ⟨⟨rfl, rfl, rfl⟩, ?_, ?_, ?_, fun _ => ⟨hnew, ?_⟩, nofun, ?_, nofun, fun _ h => .inl h⟩
    · rw [hgo]
      rfl
    · by_cases hgone : s.pc.gone = true
      · exact .inl (if_pos hgone)
      · exact .inr ⟨hnew, rfl, eq_false_of_ne_true hgone, if_neg hgone⟩
    · intro j hj
      split
      · exact mem_append_left _ hj
      · exact hj
    · by_cases hgone : s.pc.gone = true
      · simp [hgone]
      · simp [hgone]
    · intro hcl
      cases hnew.symm.trans ((hi.calls i c hc).closed hcl).2
  · -- the queue is closed
    obtain ⟨hgo, rfl⟩ := of_guard hs
    refine hi.own { c with
        stage := .finished .shutdown, closed := true } hc hl
      ⟨⟨rfl, rfl, rfl⟩, ?_, .inl rfl, fun _ => id, nofun, ?_, fun _ => ⟨nofun, rfl⟩, nofun, ?_⟩
    · rw [hgo.1]
      rfl
    · intro r hr
      exact .inr ⟨(Stage.finished.inj hr).symm, hgo.2⟩
    intro id hid
    rw [mem_append, mem_singleton] at hid
    exact hid.imp_right fun h => ⟨h, rfl⟩
  · -- the result is taken
    split at hs
    · next hwait =>
      have htake : ∀ r, c.slot = .sent r ∨ (r = .shutdown ∧ s.pc.closed = true) →
          Inv cfg (s.setCall i { c with stage := .finished r, closed := true }) := by
        intro r hr
        refine hi.own { c with stage := .finished r, closed := true } hc
          (later_set hc ⟨rfl, rfl, fun _ => rfl, fun _ => rfl, by simp [hwait]⟩)
          ⟨⟨rfl, rfl, rfl⟩, by rw [hwait]; rfl, .inl rfl, fun _ => id, by simp, ?_,
            fun _ => ⟨by simp, rfl⟩, by simp, fun _ h => .inl h⟩
        intro r' hr'
        cases hr'
        exact hr
      split at hs
      · cases hs
      · next r hslot =>
        cases hs
        exact htake r (.inl hslot)
      · next hslot =>
        cases hs
        exact htake _ (.inr ⟨rfl, (hi.calls i c hc).dropped hslot hwait⟩)
    · cases hs
  · -- the future is dropped: first its channel is closed
    obtain ⟨hgo, rfl⟩ := of_guard hs
    refine hi.own { c with stage := .dropping, closed := true } hc hl
      ⟨⟨rfl, rfl, rfl⟩, ?_, .inl rfl, fun _ => id, nofun, nofun, fun _ => ⟨nofun, rfl⟩,
        fun _ => rfl, fun _ h => .inl h⟩
    cases hgo with
    | inl h | inr h => rw [h]; rfl
  · -- then the dispatcher is told
    obtain ⟨hgo, rfl⟩ := of_guard hs
    have hcl := (hi.calls i c hc).dropping hgo
    refine hi.own { c with stage := .dropped } hc hl
      ⟨⟨rfl, rfl, rfl⟩, ?_, .inl rfl, fun _ => id, nofun, nofun, fun _ => ⟨nofun, rfl⟩, nofun, ?_⟩
    · rw [hgo]
      rfl
    intro id hid
    rw [mem_append, mem_singleton] at hid
    exact hid.imp_right fun h => ⟨h, hcl⟩
  · cases hs

end Steps

end Dispatcher
