import NagisaLake.CoursesProofs

/-! # Flight — the dispatcher's own steps

A turn of the dispatcher takes a request off its queue, puts it into the
table, lands it, or touches neither.  Each of these is one lemma about `Inv`
(`Inv.dequeued`, `Inv.admitted`, `Inv.landed`, `Inv.turn`), and every branch
of the loop is one of them. -/

namespace Dispatcher

open KeyedTable Runs Framing Wire Table List Option
open Pools (set_cases)

section Flight

variable {cfg : ClientConfig} {s t : Client} {i j : Nat} {c c' d : Call}

/-- The dispatcher turns elsewhere: its place, the log and the deadlines change. -/
theorem Inv.turn (hi : Inv cfg s) (pc : Pc) (log : List Event)
    (deadlines : Table Nat Deadline Deadline.key)
    (hon : Onward s { s with pc := pc, log := log, deadlines := deadlines })
    (hcourse : ∀ id, Course pc.running (s.inFlight.find? id) (pc.about id) (trace log id))
    (hstrays : Strays log)
    (htouched : ∀ id, pc.about id ≠ none ∨ trace log id ≠ [] → Touched s id)
    (hrunning : pc.running = true → s.pc.running = true ∧ deadlines = s.deadlines)
    (hempty : pc.closed = true → s.inFlight.rows = [])
    (hdrained : ∀ e, pc = .ended e → s.requests = []) :
    Inv cfg { s with pc := pc, log := log, deadlines := deadlines } :=
  { hi with
    calls := fun i c hc => (hi.calls i c hc).onward hon Iff.rfl (fun _ => id) rfl
    strays := hstrays
    known := by
      intro id ht
      refine hi.known id ?_
      cases ht with
      | inl h => exact .inl h
      | inr h => exact htouched id h
    course := hcourse
    flown := by
      intro hrun
      obtain ⟨hold, heq⟩ := hrunning hrun
      rw [heq]
      exact hi.flown hold
    timed := by
      intro hrun
      obtain ⟨hold, heq⟩ := hrunning hrun
      rw [heq]
      exact hi.timed hold
    emptied := hempty
    drained := hdrained }

/-- What is true of the call at the head of the queue. -/
theorem Inv.head (hi : Inv cfg s) {rest : List Nat} (hreq : s.requests = i :: rest)
    (hc : s.calls[i]? = some c) :
    (i ∉ rest ∧ rest.Nodup) ∧ c.stage.begun = true ∧ c.slot = .empty
      ∧ ∀ j, j ≠ i → (j ∈ rest ↔ j ∈ s.requests) := by
  have honce := hi.once
  rw [hreq] at honce
  have hhead : i ∈ s.requests := hreq ▸ mem_cons_self
  obtain ⟨d, hd, hstage⟩ := hi.queued i hhead
  cases hc.symm.trans hd
  refine ⟨nodup_cons.mp honce, hstage, (hi.calls i c hc).fresh (.inr hhead), ?_⟩
  intro j hji
  rw [hreq, mem_cons]
  exact ⟨.inr, fun h => h.resolve_left hji⟩

/-- A call without a value can only have found the connection closed. -/
theorem Good.finished_empty (hg : Good s i c) (hempty : c.slot = .empty) {r : CallResult}
    (hr : c.stage = .finished r) : r = .shutdown ∧ s.pc.closed = true :=
  (hg.finished r hr).resolve_left fun h => nomatch hempty.symm.trans h

/-- A call at the head of the queue is settled without having been sent. -/
theorem Inv.dequeued (hi : Inv cfg s) (hlen : s.calls.length ≤ 2 ^ 64)
    {rest : List Nat} (hreq : s.requests = i :: rest)
    (hc : s.calls[i]? = some c) (slot : Slot)
    (hne : slot ≠ .empty) (hdrop : slot = .dropped → c.closed = true ∨ s.pc.closed = true)
    (hsent : ∀ r, slot = .sent r → Sent s i c r) :
    Inv cfg { s with
      requests := rest
      calls := s.calls.set i { c with slot := slot } } := by
  have hg := hi.calls i c hc
  have hhead : i ∈ s.requests := hreq ▸ mem_cons_self
  obtain ⟨⟨hnot, honce⟩, hstage, hempty, hmem⟩ := hi.head hreq hc
  have hl := later_slot hc slot
  exact { hi with
    calls := by
      intro j d hd
      cases set_cases hd with
      | inl h =>
        obtain ⟨rfl, rfl⟩ := h
        exact { hg with
          fresh := fun h => h.elim (fun h => nomatch h.symm.trans hstage) fun h => absurd h hnot
          pending := fun _ h => absurd h hne
          sent := hsent
          -- it has not taken a result out of an empty channel
          finished := fun r hr => .inr (hg.finished_empty hempty hr)
          dropped := fun h hst => (hdrop h).resolve_left fun hcl => (hg.closed hcl).1 hst }
      | inr h =>
        exact (hi.calls j d h.2).onward ⟨fun _ => id, Nat.le_refl _,
          fun _ => id, id, id⟩ (hmem j h.1) (fun _ => id) rfl
    nextId := by
      rw [length_set]
      exact hi.nextId
    once := honce
    queued := by
      intro j hj
      have hji : j ≠ i := fun h => hnot (h ▸ hj)
      obtain ⟨d, hd, hst⟩ := hi.queued j ((hmem j hji).mp hj)
      exact ⟨d, set_other hd hji, hst⟩
    flying := by
      intro p hp
      obtain ⟨d, hd, h⟩ := hi.flying p hp
      exact ⟨d, set_other hd (hi.call_ne hlen hc (.inr hhead) hp), h⟩
    known := by
      intro id ht
      refine hi.known_later hl ?_ ht
      intro j d hd _ hj
      rw [hreq]
      exact mem_cons_of_mem i hj
    cancelled := fun id hid => hi.cancelled_later hl hid
    timed := fun hrun e he =>
      ⟨(hi.timed hrun e he).1, due_later hl (hi.timed hrun e he).2⟩
    drained := fun e he => nomatch hreq.symm.trans (hi.drained e he)
    refusing := fun hno => nomatch hreq.symm.trans (hi.refusing hno).2 }

variable {id : UInt64}

theorem mem_land {q : Pending} : q ∈ (s.inFlight.delete fun p => decide (p.id = id)).rows
      ↔ q ∈ s.inFlight.rows ∧ q.id ≠ id := by
  show q ∈ s.inFlight.rows.filter _ ↔ _
  simp

theorem mem_unlist {key : Nat} {d : Deadline} :
    d ∈ (s.deadlines.delete fun d => decide (d.key = key)).rows
      ↔ d ∈ s.deadlines.rows ∧ d.key ≠ key := by
  show d ∈ s.deadlines.rows.filter _ ↔ _
  simp

variable {p : Pending} {a : Act}

/-- A call leaves the table: it has its result, or nobody waits for one. -/
theorem Inv.landed (hi : Inv cfg s) (hlen : s.calls.length ≤ 2 ^ 64)
    (hp : s.inFlight.find? id = some p) (hc : s.calls[p.call]? = some c)
    (slot : Slot) (deadlines : Table Nat Deadline Deadline.key) (pc : Pc)
    (log : List Event) (hstrays : Strays log) (hslot : (∃ r, slot = .sent r) ∨ c.closed = true)
    (hsent : ∀ r, slot = .sent r → Sent { s with pc := pc, log := log }
      p.call c r) (hon : Onward s { s with
      pc := pc, log := log, deadlines := deadlines })
    (hopen : pc.closed = false)
    (hcourse : Course pc.running none (pc.about id) (trace log id))
    (helse : ∀ id', id' ≠ id → pc.about id' = s.pc.about id' ∧ trace log id' = trace s.log id')
    (hrunning : pc.running = true → s.pc.running = true
      ∧ deadlines = s.deadlines.delete fun d => decide (d.key = p.call))
    (hended : pc.running = s.pc.running) :
    Inv cfg { s with
      calls := s.calls.set p.call { c with slot := slot }
      inFlight := s.inFlight.delete fun p => decide (p.id = id)
      deadlines := deadlines
      pc := pc
      log := log } := by
  have hg := hi.calls p.call c hc
  obtain ⟨c₀, hc₀, hcid, hcslot⟩ := hi.find_call hp
  cases hc.symm.trans hc₀
  have hclosed : s.pc.closed = false := by
    by_contra hno
    have hnil := hi.emptied (eq_true_of_ne_false hno)
    have hmem := mem_of_find? hp
    rw [hnil] at hmem
    cases hmem
  have hl := later_slot hc slot
  -- two entries are of two calls
  have hcall : ∀ q ∈ s.inFlight.rows, q.id ≠ id → q.call ≠ p.call := by
    intro q hq hqid hqp
    obtain ⟨d, hd, hdid, -⟩ := hi.flying q hq
    rw [hqp] at hd
    cases hc.symm.trans hd
    exact hqid (hdid.symm.trans hcid)
  exact { hi with
    calls := by
      intro j d hd
      cases set_cases hd with
      | inl h =>
        obtain ⟨rfl, rfl⟩ := h
        exact { hg with
          fresh := fun hf => absurd rfl (hi.call_ne hlen hc hf (mem_of_find? hp))
          pending := by
            intro hst hempty
            refine absurd hst (hg.closed (hslot.resolve_left ?_)).1
            rintro ⟨r, hr⟩
            cases hempty.symm.trans hr
          sent := hsent
          finished := by
            intro r hr
            cases hclosed.symm.trans (hg.finished_empty hcslot hr).2
          dropped := by
            intro hdrop hst
            refine absurd hst (hg.closed (hslot.resolve_left ?_)).1
            rintro ⟨r, hr⟩
            cases hdrop.symm.trans hr }
      | inr h =>
        have hdid : d.id ≠ id := fun hdid =>
          h.1 (hi.call_eq hlen h.2 hc (hdid.trans hcid.symm))
        exact (hi.calls j d h.2).onward ⟨hon.log, hon.now, hon.error,
          hon.closed, hon.held⟩ Iff.rfl (fun _ h => h) (find?_delete_ne _ hdid)
    nextId := by
      rw [length_set]
      exact hi.nextId
    queued := fun j hj => hi.queued_later hl hj
    strays := hstrays
    flying := by
      intro q hq
      obtain ⟨hq, hqid⟩ := mem_land.mp hq
      obtain ⟨d, hd, h⟩ := hi.flying q hq
      exact ⟨d, set_other hd (hcall q hq hqid), h⟩
    known := by
      intro id' ht
      refine hi.known_later hl (fun _ _ _ _ h => h) ?_
      by_cases hne : id' = id
      · rw [hne]
        refine .inl ?_
        rw [hp]
        exact nofun
      · obtain ⟨habout, htrace⟩ := helse id' hne
        obtain h | h | h := ht
        · exact .inl (find?_delete_ne _ hne ▸ h)
        · exact .inr (.inl (habout ▸ h))
        · exact .inr (.inr (htrace ▸ h))
    course := by
      intro id'
      by_cases hne : id' = id
      · subst hne
        rw [find?_delete_self]
        exact hcourse
      · obtain ⟨habout, htrace⟩ := helse id' hne
        rw [find?_delete_ne _ hne, habout, htrace, hended]
        exact hi.course id'
    cancelled := fun id hid => hi.cancelled_later hl hid
    flown := by
      intro hrun q hq
      obtain ⟨hold, hdl⟩ := hrunning hrun
      obtain ⟨hq, hqid⟩ := mem_land.mp hq
      obtain ⟨d, hd, hkey, hdid⟩ := hi.flown hold q hq
      refine ⟨d, ?_, hkey, hdid⟩
      rw [hdl, mem_unlist]
      exact ⟨hd, hkey ▸ hcall q hq hqid⟩
    timed := by
      intro hrun d hd
      obtain ⟨hold, hdl⟩ := hrunning hrun
      rw [hdl, mem_unlist] at hd
      obtain ⟨⟨q, hq, hqcall, hqid⟩, hdue⟩ := hi.timed hold d hd.1
      refine ⟨⟨q, mem_land.mpr ⟨hq, ?_⟩, hqcall, hqid⟩, due_later hl hdue⟩
      intro hqe
      have hfind : s.inFlight.find? q.id = some q := find?_of_mem hq
      rw [hqe, hp] at hfind
      cases hfind
      exact hd.2 hqcall.symm
    short := Nat.le_trans (length_filter_le ..) hi.short
    emptied := fun h => nomatch hopen.symm.trans h
    drained := by
      intro e he
      rw [show pc = .ended e from he] at hopen
      cases hopen }

/-- The head of the queue is put into the table, with a deadline, and its
    request is about to be sent. -/
theorem Inv.admitted (hi : Inv cfg s) (hlen : s.calls.length ≤ 2 ^ 64) (hpc : s.pc = .idle)
    (hroom : s.inFlight.rows.length < cfg.maxInFlightRequests)
    {rest : List Nat} (hreq : s.requests = i :: rest)
    (hc : s.calls[i]? = some c) (timeoutMicros : UInt64) :
    Inv cfg { s with
      requests := rest
      deadlines := s.deadlines.put ⟨i, c.id, c.deadline⟩
      inFlight := s.inFlight.put ⟨c.id, i⟩
      pc := .sending (.request c.id timeoutMicros c.traceId c.body) } := by
  have hg := hi.calls i c hc
  have hhead : i ∈ s.requests := hreq ▸ mem_cons_self
  obtain ⟨⟨hnot, honce⟩, hstage, hempty, hmem⟩ := hi.head hreq hc
  have hrun : s.pc.running = true := by rw [hpc]; rfl
  have huntouched := hi.untouched hlen hc (.inr hhead)
  have hfind : ∀ id', id' ≠ c.id → (s.inFlight.put ⟨c.id, i⟩).find? id' = s.inFlight.find? id' := by
    intro id' hne
    rw [find?_put, if_neg (Ne.symm hne)]
  have habout : ∀ id', id' ≠ c.id →
      Pc.about (.sending (.request c.id timeoutMicros c.traceId c.body)) id' = none := by
    intro id' hne
    show (if c.id = id' then _ else _) = none
    rw [if_neg (Ne.symm hne)]
  exact { hi with
    calls := by
      intro j d hd
      by_cases hji : j = i
      · subst hji
        cases hc.symm.trans hd
        exact { hg with
          fresh := fun _ => hempty
          pending := by
            intro _ _
            refine .inr (.inr ?_)
            rw [find?_put, if_pos rfl]
          sent := fun r hr => nomatch hempty.symm.trans hr
          finished := by
            intro r hr
            have hcl := (hg.finished_empty hempty hr).2
            rw [hpc] at hcl
            cases hcl
          dropped := fun h => nomatch hempty.symm.trans h }
      · refine (hi.calls j d hd).onward ⟨fun _ => id, Nat.le_refl _, ?_, ?_,
          id⟩ (hmem j hji) (fun _ => id) (hfind d.id fun h => hji (hi.call_eq hlen hd hc h))
        · intro e he
          rw [hpc] at he
          cases he
        · intro hcl
          rw [hpc] at hcl
          cases hcl
    once := honce
    queued := by
      intro j hj
      exact hi.queued j (hreq ▸ mem_cons_of_mem i hj)
    flying := by
      intro q hq
      cases mem_put.mp hq with
      | inl h =>
        subst h
        exact ⟨c, hc, rfl, hempty⟩
      | inr h => exact hi.flying q h.1
    known := by
      intro id' ht
      by_cases hne : id' = c.id
      · exact ⟨i, c, hc, hne.symm, hstage, hnot⟩
      refine hi.known_later (later_refl _) ?_ ?_
      · intro j d _ _ hj
        exact hreq ▸ mem_cons_of_mem i hj
      obtain h | h | h := ht
      · exact .inl (hfind id' hne ▸ h)
      · exact absurd (habout id' hne) h
      · exact .inr (.inr h)
    course := by
      intro id'
      by_cases hne : id' = c.id
      · subst hne
        rw [find?_put, if_pos rfl]
        refine .inr ⟨?_, .inl ?_⟩
        · by_contra hno
          exact huntouched (.inr (.inr hno))
        · show (if c.id = c.id then _ else _) = _
          rw [if_pos rfl]
      · have hold := hi.course id'
        rw [hpc] at hold
        rw [hfind id' hne, habout id' hne]
        exact hold
    flown := by
      intro _ q hq
      cases mem_put.mp hq with
      | inl h =>
        subst h
        exact ⟨_, mem_put.mpr (.inl rfl), rfl, rfl⟩
      | inr h =>
        obtain ⟨d, hd, hkey, hdid⟩ := hi.flown hrun q h.1
        refine ⟨d, mem_put.mpr (.inr ⟨hd, ?_⟩), hkey, hdid⟩
        rw [hkey]
        exact hi.call_ne hlen hc (.inr hhead) h.1
    timed := by
      intro _ d hd
      cases mem_put.mp hd with
      | inl h =>
        subst h
        exact ⟨⟨_, mem_put.mpr (.inl rfl), rfl, rfl⟩, c, hc, rfl⟩
      | inr h =>
        obtain ⟨⟨q, hq, hqcall, hqid⟩, hdue⟩ := hi.timed hrun d h.1
        refine ⟨⟨q, mem_put.mpr (.inr ⟨hq, ?_⟩), hqcall, hqid⟩, hdue⟩
        show q.id ≠ c.id
        intro hqc
        refine huntouched (.inl ?_)
        have hqfind : s.inFlight.find? q.id = some q := find?_of_mem hq
        rw [← hqc, hqfind]
        exact nofun
    short := by
      exact Nat.lt_of_le_of_lt (length_filter_le ..) hroom
    emptied := fun h => nomatch h
    drained := fun e he => nomatch he
    refusing := fun hno => nomatch hreq.symm.trans (hi.refusing hno).2 }

/-- The courses an id can have had when nothing is under way. -/
theorem course_stopped {running : Bool} {flying : Option Pending}
    {about : Option Kind} {course : List Kind}
    (h : Course running flying about course) :
    Course false none none course := by
  refine .inr ⟨rfl, ?_⟩
  cases flying with
  | some p =>
    obtain ⟨h, -⟩ | ⟨h, -⟩ := h
    · exact .inr (.inl ⟨h, rfl⟩)
    · exact .inl h
  | none =>
    obtain ⟨h, -⟩ | ⟨-, h⟩ := h
    · exact .inr (.inl ⟨h, rfl⟩)
    · exact h.imp_right (Or.imp_left fun h => ⟨h.1, rfl⟩)

theorem crash_cases (h : s.crash.calls[i]? = some c') : ∃ c, s.calls[i]? = some c ∧
      (((i ∈ s.requests ∨ ∃ p ∈ s.inFlight.rows, p.call = i) ∧ c' = { c with slot := .dropped })
        ∨ ((i ∉ s.requests ∧ ∀ p ∈ s.inFlight.rows, p.call ≠ i) ∧ c' = c)) := by
  have h : (s.calls.mapIdx _)[i]? = some c' := h
  rw [getElem?_mapIdx] at h
  obtain ⟨c, hc, rfl⟩ := map_eq_some_iff.mp h
  refine ⟨c, hc, ?_⟩
  by_cases hheld : i ∈ s.requests ∨ (s.inFlight.rows.any fun p => decide (p.call = i)) = true
  · rw [if_pos hheld]
    refine .inl ⟨hheld.imp_right fun hany => ?_, rfl⟩
    obtain ⟨p, hp, hpi⟩ := any_eq_true.mp hany
    exact ⟨p, hp, of_decide_eq_true hpi⟩
  · rw [if_neg hheld]
    obtain ⟨hq, hany⟩ := not_or.mp hheld
    refine .inr ⟨⟨hq, fun p hp hpi => hany ?_⟩, rfl⟩
    exact any_eq_true.mpr ⟨p, hp, decide_eq_true hpi⟩

theorem later_crash (s : Client) : Later s.calls s.crash.calls := by
  intro j d hd
  have h : s.crash.calls[j]? = (s.calls[j]?).map _ := getElem?_mapIdx
  rw [hd, map_some] at h
  refine ⟨_, h, ?_⟩
  split
  all_goals exact ⟨rfl, rfl, id, id, fun _ => id⟩

theorem inv_crash (hi : Inv cfg s) (hlen : s.calls.length ≤ 2 ^ 64) : Inv cfg s.crash where
  calls := by
    intro i c' hc'
    obtain ⟨c, hc, h⟩ := crash_cases hc'
    have hg := hi.calls i c hc
    have hon : Onward s s.crash := ⟨fun _ => id, Nat.le_refl _, fun _ => id, fun _ => rfl, id⟩
    cases h with
    | inl h =>
      -- the dispatcher held the other end of its channel
      obtain ⟨hheld, rfl⟩ := h
      have hempty : c.slot = .empty := by
        cases hheld with
        | inl hq => exact hg.fresh (.inr hq)
        | inr hp =>
          obtain ⟨p, hp, rfl⟩ := hp
          obtain ⟨d, hd, -, hslot⟩ := hi.flying p hp
          cases hc.symm.trans hd
          exact hslot
      exact { hg with
        fresh := by
          intro hf
          have hsend : c.stage.begun = false := hf.resolve_right nofun
          cases hheld with
          | inl hq =>
            obtain ⟨d, hd, hst⟩ := hi.queued i hq
            cases hc.symm.trans hd
            cases hsend.symm.trans hst
          | inr hp =>
            obtain ⟨p, hp, hpi⟩ := hp
            exact absurd hpi (hi.call_ne hlen hc (.inl hsend) hp)
        pending := fun _ h => nomatch h
        sent := fun _ h => nomatch h
        finished := fun r hr => .inr ⟨(hg.finished_empty hempty hr).1, rfl⟩
        dropped := fun _ _ => rfl }
    | inr h =>
      obtain ⟨⟨hq, hp⟩, rfl⟩ := h
      exact { hg with
        fresh := fun hf => hg.fresh (.inl (hf.resolve_right nofun))
        pending := by
          intro hst hempty
          rcases hg.pending hst hempty with h | h | h
          · exact absurd h hq
          · exact .inr (.inl h)
          · exact absurd rfl (hp _ (mem_of_find? h))
        sent := fun r hr => (hg.sent r hr).onward hon rfl rfl
        finished := fun r hr =>
          (hg.finished r hr).imp_right fun h => ⟨h.1, rfl⟩
        dropped := fun _ _ => rfl }
  nextId := by
    show s.nextId = UInt64.ofNat ((s.calls.mapIdx _).length + 1)
    rw [length_mapIdx]
    exact hi.nextId
  once := nodup_nil
  queued := fun _ h => nomatch h
  flying := fun _ h => nomatch h
  known := by
    intro id ht
    refine hi.known_later (later_crash s) (fun _ _ _ _ (h : _ ∈ ([] : List Nat)) => nomatch h) ?_
    obtain h | h | h := ht
    · exact absurd rfl h
    · exact absurd rfl h
    · exact .inr (.inr h)
  strays := hi.strays
  course := fun id => course_stopped (hi.course id)
  cancelled := fun id hid => hi.cancelled_later (later_crash s) hid
  flown := fun h => nomatch h
  timed := fun h => nomatch h
  short := Nat.zero_le _
  emptied := fun _ => rfl
  drained := fun _ _ => rfl
  refusing := fun hno => ⟨(hi.refusing hno).1, rfl⟩

/-- The deadline of a call in flight is there to be removed. -/
theorem Inv.find_deadline (hi : Inv cfg s) (hrun : s.pc.running = true)
    (hp : s.inFlight.find? id = some p) :
    (s.deadlines.find? p.call).isSome = true := by
  obtain ⟨d, hd, hkey, -⟩ := hi.flown hrun p (mem_of_find? hp)
  have hfind : s.deadlines.find? d.key = some d := find?_of_mem hd
  rw [← hkey, hfind]
  rfl

/-- At its `select!` the dispatcher has failed nothing yet. -/
theorem onward_of_idle (hpc : s.pc = .idle) (hlog : ∀ e ∈ s.log, e ∈ t.log)
    (hnow : s.now = t.now) (hheld : s.held = t.held) : Onward s t where
  log := hlog
  now := Nat.le_of_eq hnow
  error := by
    intro e he
    rw [hpc] at he
    cases he
  closed := by
    intro h
    rw [hpc] at h
    cases h
  held := fun h => hheld.trans h

theorem course_idle (hi : Inv cfg s) (hpc : s.pc = .idle) (hp : s.inFlight.find? id = some p) :
    trace s.log id = [.request] := by
  have hold := hi.course id
  rw [hp, hpc] at hold
  obtain ⟨h, -⟩ | ⟨-, h | h⟩ := hold
  · exact h
  · cases h
  · cases h.1

theorem about_cancel {id' : UInt64} (hne : id' ≠ id) :
    Pc.about (.sending (.cancel id)) id' = none := by
  show (if id = id' then _ else _) = none
  rw [if_neg (Ne.symm hne)]

theorem inv_heard (hi : Inv cfg s) {rest : List UInt64} (hcan : s.cancellations = id :: rest) :
    Inv cfg { s with cancellations := rest } :=
  { hi with
    calls := fun i c hc => (hi.calls i c hc).onward ⟨fun _ h => h,
      Nat.le_refl _, fun _ h => h, fun h => h, fun h => h⟩ Iff.rfl (fun _ h => h) rfl
    cancelled := fun id' hid' =>
      hi.cancelled id' (hcan ▸ mem_cons_of_mem id hid') }

/-- Only calls whose channel is closed are cancelled. -/
theorem inv_cancelRequest (hi : Inv cfg s) (hlen : s.calls.length ≤ 2 ^ 64)
    (hpc : s.pc = .idle) (hj : s.calls[j]? = some d) (hdid : d.id = id)
    (hclosed : d.closed = true) :
    Inv cfg (cancelRequest s id) := by
  rw [cancelRequest]
  split
  · exact hi
  next p hp =>
  have hrun : s.pc.running = true := by rw [hpc]; rfl
  rw [if_pos (hi.find_deadline hrun hp)]
  obtain ⟨c, hc, hcid, hempty⟩ := hi.find_call hp
  obtain rfl := hi.call_eq hlen hc hj (hcid.trans hdid.symm)
  obtain rfl := some.inj (hc.symm.trans hj)
  have hland := hi.landed hlen hp hc c.slot (s.deadlines.delete fun d => decide (d.key = p.call))
    (.sending (.cancel id)) s.log hi.strays (.inr hclosed)
    (fun r hr => nomatch hempty.symm.trans hr)
    (onward_of_idle hpc (fun _ h => h) rfl rfl) rfl
    (.inl ⟨course_idle hi hpc hp, if_pos rfl⟩)
    (fun id' hne => ⟨by rw [about_cancel hne, hpc]; rfl, rfl⟩)
    (fun _ => ⟨hrun, rfl⟩) hrun.symm
  rw [set_same hc] at hland
  exact hland

/-- A response under an id that is not in flight. -/
theorem trace_unknown (log : List Event) (f : ServerFrame) (id : UInt64) :
    trace (log ++ [.consumed f.id f.code f.body none]) id = trace log id := by
  rw [trace_concat]
  exact append_nil _

theorem trace_answer (log : List Event) (f : ServerFrame) (i : Nat) (id : UInt64) :
    trace (log ++ [.consumed f.id f.code f.body (some i)]) id
      = trace log id ++ if f.id = id then [.answer] else [] := by
  rw [trace_concat]
  show _ ++ (if f.id = id then some Kind.answer else none).toList = _
  split
  · rfl
  · rfl

theorem Call.resolve_slot (c : Call) (r : CallResult) :
    (∃ r', (c.resolve r).slot = .sent r') ∨ c.closed = true := by
  by_cases h : c.closed = true
  · exact .inr h
  · exact .inl ⟨r, if_neg h⟩

theorem Call.resolve_ne_empty (c : Call) (r : CallResult) : (c.resolve r).slot ≠ .empty := by
  rw [Call.resolve]
  split
  · exact nofun
  · exact nofun

theorem Call.closed_of_resolve (c : Call) {r : CallResult}
    (h : (c.resolve r).slot = .dropped) : c.closed = true := by
  rw [Call.resolve] at h
  split at h
  · next hcl => exact hcl
  · cases h

theorem Call.eq_of_resolve {r r' : CallResult} (h : (c.resolve r).slot = .sent r') : r' = r := by
  rw [Call.resolve] at h
  split at h
  · cases h
  · exact (Slot.sent.inj h).symm

/-- The dispatcher leaves its loop. -/
theorem inv_ending (hi : Inv cfg s) (hrun : s.pc.running = true)
    (e : ConnectionError) : Inv cfg { s with pc := .ending e } := by
  have herr : s.pc.error = none ∧ s.pc.closed = false := by
    cases hpc : s.pc with
    | idle | sending f => exact ⟨rfl, rfl⟩
    | ending e | draining e | leaving e | ended e => rw [hpc] at hrun; cases hrun
  refine hi.turn (.ending e) s.log s.deadlines ⟨fun _ => id, Nat.le_refl _,
    fun e he => (nomatch herr.1.symm.trans he),
    fun h => (nomatch herr.2.symm.trans h), id⟩ ?_ hi.strays ?_ nofun nofun nofun
  · intro id
    have hold := hi.course id
    cases hp : s.inFlight.find? id with
    | none =>
      exact course_stopped hold
    | some p =>
      rw [hp] at hold
      obtain ⟨h, -⟩ | ⟨h, -⟩ := hold
      · exact .inl ⟨h, rfl⟩
      · exact .inr ⟨h, .inr ⟨rfl, rfl⟩⟩
  · intro id h
    exact .inr (.inr (h.resolve_left fun h => h rfl))

/-- It goes on with nothing in flight and nothing more to take. -/
theorem Inv.away (hi : Inv cfg s) (pc : Pc) (deadlines : Table Nat Deadline Deadline.key)
    (herror : ∀ e, s.pc.error = some e → pc.error = some e) (hrun : pc.running = false)
    (hclosed : pc.closed = true) (hnil : s.inFlight.rows = [])
    (hdrained : ∀ e, pc = .ended e → s.requests = []) :
    Inv cfg { s with pc := pc, deadlines := deadlines } := by
  have habout : ∀ id, pc.about id = none := by
    intro id
    cases pc with
    | idle | sending f => cases hrun
    | ending e | draining e | leaving e | ended e => rfl
  refine hi.turn pc s.log deadlines ⟨fun _ => id, Nat.le_refl _, herror, fun _ => hclosed, id⟩
    ?_ hi.strays ?_ ?_ (fun _ => hnil) hdrained
  · intro id
    have hnone : s.inFlight.find? id = none := by
      rw [find?_eq_none_iff, hnil]
      exact nofun
    rw [hrun, hnone, habout]
    exact course_stopped (hi.course id)
  · intro id h
    exact .inr (.inr (h.resolve_left fun h => h (habout id)))
  · intro h
    cases hrun.symm.trans h

/-- At its `select!` it meets a response under an id that is not in flight: too early, or too
    late. -/
theorem trace_of_stray (hi : Inv cfg s) (hpc : s.pc = .idle) (hp : s.inFlight.find? id = none) :
    trace s.log id = [] ∨ 2 ≤ (trace s.log id).length := by
  have hold := hi.course id
  rw [hp, hpc] at hold
  rcases hold with ⟨-, h⟩ | ⟨-, h | h | h | h⟩
  · cases h
  · exact .inl h
  · cases h.2
  all_goals simp [h]

theorem inv_receive (hi : Inv cfg s) (hlen : s.calls.length ≤ 2 ^ 64)
    (hpc : s.pc = .idle) (event : Option (ReadEvent ServerFrame)) :
    Inv cfg (receive s event) := by
  have hrun : s.pc.running = true := by rw [hpc]; rfl
  rw [receive.eq_def]
  split
  · next f =>
    split
    · -- the response is nobody's
      next hp =>
      refine hi.turn s.pc _ s.deadlines
        (onward_of_idle hpc (fun _ h => mem_append_left _ h) rfl rfl)
        ?_ (hi.strays.concat ?_) ?_ (fun h => ⟨h, rfl⟩) hi.emptied hi.drained
      · intro id
        rw [trace_unknown]
        exact hi.course id
      · rintro id code body ⟨⟩
        exact trace_of_stray hi hpc hp
      intro id h
      rw [trace_unknown] at h
      exact .inr h
    · next p hp =>
      rw [if_pos (hi.find_deadline hrun hp)]
      obtain ⟨c, hc, hcid, hempty⟩ := hi.find_call hp
      have hland := hi.landed hlen hp hc (c.resolve (.response f.code f.body)).slot
        (s.deadlines.delete fun d => decide (d.key = p.call)) s.pc
        (s.log ++ [.consumed f.id f.code f.body (some p.call)])
        (hi.strays.concat (by simp)) (c.resolve_slot _) ?_
        (onward_of_idle hpc (fun _ h => mem_append_left _ h) rfl rfl)
        (by rw [hpc]; rfl) ?_ ?_ (fun _ => ⟨hrun, rfl⟩) rfl
      · rw [resolve_eq_set (s := (s.land f.id).unlist p.call) hc]
        exact hland
      · -- it is the call's own response that was consumed
        intro r hr
        obtain rfl := Call.eq_of_resolve hr
        show .consumed c.id f.code f.body (some p.call) ∈ s.log ++ _
        rw [hcid]
        exact mem_append_right _ (mem_singleton.mpr rfl)
      · rw [trace_answer, if_pos rfl, course_idle hi hpc hp, hpc]
        exact .inr ⟨rfl, .inr (.inr (.inl rfl))⟩
      · intro id' hne
        rw [trace_answer, if_neg (Ne.symm hne), append_nil]
        exact ⟨rfl, rfl⟩
  all_goals exact inv_ending hi hrun _

theorem inv_expire (hi : Inv cfg s) (hlen : s.calls.length ≤ 2 ^ 64)
    (hpc : s.pc = .idle) {d : Deadline} (hd : d ∈ s.deadlines.rows)
    (hdue : d.due ≤ s.now) : Inv cfg (expireRequest s d) := by
  have hrun : s.pc.running = true := by rw [hpc]; rfl
  obtain ⟨⟨p, hp, hcall, hid⟩, c, hc, hdl⟩ := hi.timed hrun d hd
  have hfind : s.inFlight.find? d.id = some p := by
    rw [← hid]
    exact find?_of_mem hp
  rw [← hcall] at hc
  have hland := hi.landed hlen hfind hc (c.resolve .deadlineExceeded).slot
    (s.deadlines.delete fun d' => decide (d'.key = p.call))
    (.sending (.cancel d.id)) s.log hi.strays (c.resolve_slot _) ?_
    (onward_of_idle hpc (fun _ => id) rfl rfl) rfl
    (.inl ⟨course_idle hi hpc hfind, if_pos rfl⟩)
    (fun id' hne => ⟨by rw [about_cancel hne, hpc]; rfl, rfl⟩)
    (fun _ => ⟨hrun, rfl⟩) hrun.symm
  · rw [expireRequest, hfind]
    show Inv cfg { ((s.unlist d.key).land d.id).resolve p.call _ with pc := _ }
    rw [resolve_eq_set (s := (s.unlist d.key).land d.id) hc]
    rw [hcall] at hland ⊢
    exact hland
  · intro r hr
    obtain rfl := Call.eq_of_resolve hr
    show c.deadline < s.now + 1000
    omega

/-- A call with less than a microsecond left is late by then. -/
theorem late_of_remaining (h : remainingMicros s c = 0) : c.deadline < s.now + 1000 := by
  have hnat := congrArg UInt64.toNat h
  rw [remainingMicros, UInt64.toNat_ofNat'] at hnat
  have hzero : (0 : UInt64).toNat = 0 := rfl
  omega

theorem inv_selectStep (hi : Inv cfg s) (hlen : s.calls.length ≤ 2 ^ 64)
    (hpc : s.pc = .idle) (hs : selectStep cfg s a = some t) : Inv cfg t := by
  rw [selectStep.eq_def] at hs
  split at hs
  · -- a request
    split at hs
    · next hgo =>
      split at hs
      · next i rest hreq =>
        obtain ⟨c, hc, rfl⟩ := map_eq_some_iff.mp hs
        rw [admitRequest]
        split
        · next hcl =>
          exact hi.dequeued hlen hreq hc .dropped nofun (fun _ => .inl hcl) nofun
        next hcl =>
        split
        · next hzero =>
          rw [resolve_eq_set (s := { s with requests := rest }) hc]
          refine hi.dequeued hlen hreq hc _ (c.resolve_ne_empty _)
            (fun h => .inl (c.closed_of_resolve h)) ?_
          · intro r hr
            obtain rfl := Call.eq_of_resolve hr
            exact late_of_remaining hzero
        · exact hi.admitted hlen hpc hgo.2 hreq hc _
      · next hreq =>
        obtain ⟨hheld, rfl⟩ := of_guard_not hs
        exact { hi with
          calls := fun i c hc => (hi.calls i c hc).onward
            ⟨fun _ => id, Nat.le_refl _, fun _ => id, id, id⟩ Iff.rfl (fun _ => id) rfl
          refusing := fun _ => ⟨eq_false_of_ne_true hheld, hreq⟩ }
    · cases hs
  · -- a cancellation
    split at hs
    · next id rest hcan =>
      cases hs
      obtain ⟨j, d, hd, hdid, hcl⟩ :=
        hi.cancelled id (hcan ▸ mem_cons_self)
      exact inv_cancelRequest (inv_heard hi hcan) hlen hpc hd hdid hcl
    · cases hs
  · cases hs
    exact inv_receive hi hlen hpc _
  · -- a deadline
    split at hs
    · next d hd =>
      obtain ⟨hdue, rfl⟩ := of_guard hs
      exact inv_expire hi hlen hpc (mem_of_find? hd) hdue
    · cases hs
  · cases hs
    exact inv_ending hi (by rw [hpc]; rfl) _
  · -- every handle is gone, and nothing is in flight
    obtain ⟨hgo, rfl⟩ := of_guard hs
    exact hi.away (.ended none) s.deadlines (by simp [hpc, Pc.error]) rfl rfl hgo.2
      fun _ _ => (hi.refusing hgo.1).2
  · cases hs

/-- The frame under way is queued. -/
theorem inv_sent (hi : Inv cfg s) {f : ClientFrame} (hpc : s.pc = .sending f) :
    Inv cfg { s with pc := .idle, log := s.log ++ [.queued f] } := by
  have habout : ∀ id, kindOf id (.queued f) = s.pc.about id := by
    intro id
    rw [hpc]
    rfl
  refine hi.turn .idle _ s.deadlines ⟨fun _ h => mem_append_left _ h,
    Nat.le_refl _, ?_, ?_, id⟩ ?_ (hi.strays.concat nofun) ?_ ?_ nofun nofun
  · intro e he
    rw [hpc] at he
    cases he
  · intro h
    rw [hpc] at h
    cases h
  · intro id
    have hold := hi.course id
    rw [trace_concat, habout]
    have hrun : s.pc.running = true := by rw [hpc]; rfl
    cases hp : s.inFlight.find? id with
    | some p =>
      rw [hp, hrun] at hold
      obtain ⟨htrace, hab⟩ | ⟨htrace, hab | hab⟩ := hold
      rotate_right
      · cases hab.1
      all_goals
        rw [htrace, hab]
        exact .inl ⟨rfl, rfl⟩
    | none =>
      rw [hp] at hold
      obtain ⟨htrace, hab⟩ | ⟨hab, htrace⟩ := hold
      · rw [htrace, hab]
        exact .inr ⟨rfl, .inr (.inr (.inr rfl))⟩
      · rw [hab, toList_none, append_nil]
        rw [hrun] at htrace
        exact .inr ⟨rfl, htrace⟩
  · intro id h
    have h := h.resolve_left fun h => h rfl
    rw [trace_concat, habout] at h
    by_cases hab : s.pc.about id = none
    · rw [hab, toList_none, append_nil] at h
      exact .inr (.inr h)
    · exact .inr (.inl hab)
  · intro _
    exact ⟨by rw [hpc]; rfl, rfl⟩

theorem inv_otherStep (hi : Inv cfg s) (hlen : s.calls.length ≤ 2 ^ 64)
    (hs : otherStep s a = some t) :
    Inv cfg t := by
  rw [otherStep.eq_def] at hs
  split at hs
  · split at hs
    · next f hpc =>
      cases hs
      exact inv_sent hi hpc
    · cases hs
  · split at hs
    · next f hpc =>
      cases hs
      exact inv_ending hi (by rw [hpc]; rfl) _
    · cases hs
  · -- what is in flight fails
    split at hs
    · next id _ _ e p hpc hp =>
      cases hs
      obtain ⟨c, hc, hcid, -⟩ := hi.find_call hp
      rw [resolve_eq_set (s := s.land id) hc]
      refine hi.landed hlen hp hc (c.resolve (.connection e)).slot
        s.deadlines s.pc s.log hi.strays (c.resolve_slot _) ?_
        ⟨fun _ h => h, Nat.le_refl _, fun _ h => h, fun h => h, fun h => h⟩
        ?_ ?_ (fun _ _ => ⟨rfl, rfl⟩) ?_ rfl
      · intro r hr
        obtain rfl := Call.eq_of_resolve hr
        rw [hpc]
        rfl
      · rw [hpc]
        rfl
      · have hold := course_stopped (hi.course id)
        rw [hpc]
        exact hold
      · intro hrun
        rw [hpc] at hrun
        cases hrun
    · cases hs
  · split at hs
    · next e hpc =>
      obtain ⟨hnil, rfl⟩ := of_guard hs
      exact hi.away (.draining e) s.deadlines (by simp [hpc, Pc.error]) rfl rfl hnil nofun
    · cases hs
  · -- what is queued fails
    split at hs
    · next e i rest hpc hreq =>
      cases hs
      obtain ⟨c, hc, -⟩ := hi.queued i (hreq ▸ mem_cons_self)
      rw [resolve_eq_set (s := { s with requests := rest }) hc]
      refine hi.dequeued hlen hreq hc _ (c.resolve_ne_empty _)
        (fun h => .inl (c.closed_of_resolve h)) ?_
      intro r hr
      obtain rfl := Call.eq_of_resolve hr
      show s.pc.error = some e
      rw [hpc]
      rfl
    · cases hs
  · split at hs
    · next e hpc hreq =>
      cases hs
      exact hi.away (.leaving e) empty (by simp [hpc, Pc.error]) rfl rfl
        (hi.emptied (by rw [hpc]; rfl)) nofun
    · cases hs
  · -- what has come meanwhile is dropped with the queue
    split at hs
    · next e i rest hpc hreq =>
      obtain ⟨c, hc, rfl⟩ := map_eq_some_iff.mp hs
      exact hi.dequeued hlen hreq hc .dropped nofun (fun _ => .inr (by rw [hpc]; rfl)) nofun
    · cases hs
  · split at hs
    · next e hpc hreq =>
      cases hs
      exact hi.away (.ended (some e)) s.deadlines (by simp [hpc, Pc.error]) rfl rfl
        (hi.emptied (by rw [hpc]; rfl)) fun _ _ => hreq
    · cases hs
  · cases hs

theorem inv_step (hi : Inv cfg s) (hlen : s.calls.length ≤ 2 ^ 64)
    (hs : step cfg s a = some t) : Inv cfg t := by
  cases a with rw [step] at hs
  | call deadline traceId body =>
    obtain ⟨hgo, rfl⟩ := of_guard hs
    exact inv_call hi hgo.1 _ _ _
  | release =>
    -- the last handle is dropped: nobody is left to wait
    obtain ⟨hgo, rfl⟩ := of_guard hs
    exact { hi with
      calls := fun i c hc => { hi.calls i c hc with
        sent := (hi.calls i c hc).sent
        released := fun _ =>
          all_eq_true.mp hgo.2 c (mem_of_getElem? hc) }
      refusing := fun hno => ⟨rfl, (hi.refusing hno).2⟩ }
  | tick n =>
    cases hs
    exact { hi with
      calls := fun i c hc => (hi.calls i c hc).onward ⟨fun _ => id,
        Nat.le_add_right _ _, fun _ => id, id, id⟩
        Iff.rfl (fun _ => id) rfl }
  | crash =>
    split at hs
    · cases hs
    · cases hs
      exact inv_crash hi hlen
  | reserve i | enqueue i | refused i | take i | drop i | cancel i =>
    obtain ⟨c, hc, hs⟩ := bind_eq_some_iff.mp hs
    exact inv_callStep hi hc hs
  | recvRequest | recvCancellation | receive event | expire key
  | writerEnded e | finish =>
    split at hs
    · next hpc => exact inv_selectStep hi hlen hpc hs
    · cases hs
  | sent | sendFailed | drain id | closeRequests | drainRequest | ret | discard | leave =>
    exact inv_otherStep hi hlen hs

end Flight

end Dispatcher
