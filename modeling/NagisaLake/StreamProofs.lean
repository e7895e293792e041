import Mathlib.Data.List.Infix

/-! # Incremental parsers — what is read does not depend on the chunks

A parser that works on a growing buffer takes an item off its front, fails,
or waits for more.  Once it has taken an item or failed, more input changes
nothing about it; that is all a reader needs so that the way the input was
cut into chunks cannot be seen in what it delivers (`feed_eq_drain`).

With an encoding every item of which the parser takes back, a stream splits
in one way only: its longest prefix of encodings is unique
(`Longest.unique`), and the reader delivers exactly its items first
(`Longest.drain`). -/

namespace Streams

open List

variable {σ α ε : Type}

/-- A parser on a buffer: an item and the rest, nothing yet, or a failure. -/
structure Parser (σ α ε : Type) where
  take : List σ → Except ε (Option (α × List σ))
  shrinks : ∀ {b a r}, take b = .ok (some (a, r)) → r.length < b.length
  taken_append : ∀ {b a r}, take b = .ok (some (a, r)) → ∀ c, take (b ++ c) = .ok (some (a, r ++ c))
  failed_append : ∀ {b e}, take b = .error e → ∀ c, take (b ++ c) = .error e

namespace Parser

variable (p : Parser σ α ε)

/-- Takes items until the parser waits or fails: the items, and the buffer left or the failure. -/
def drain (b : List σ) : List α × Except ε (List σ) :=
  match h : p.take b with
  | .error e => ([], .error e)
  | .ok none => ([], .ok b)
  | .ok (some (a, r)) =>
    have := p.shrinks h
    (a :: (drain r).1, (drain r).2)
termination_by b.length

/-- Drains the buffer, then takes in the next chunk, to the last one. -/
def feed (b : List σ) : List (List σ) → List α × Except ε (List σ)
  | [] => p.drain b
  | c :: cs =>
    match p.drain b with
    | (as, .error e) => (as, .error e)
    | (as, .ok r) => (as ++ (feed (r ++ c) cs).1, (feed (r ++ c) cs).2)

variable {p} {a : α} {b c r : List σ} {as : List α} {e : ε}

theorem drain_of_error (h : p.take b = .error e) : p.drain b = ([], .error e) := by
  rw [drain]
  split <;> simp_all

theorem drain_of_none (h : p.take b = .ok none) : p.drain b = ([], .ok b) := by
  rw [drain]
  split <;> simp_all

theorem drain_of_some (h : p.take b = .ok (some (a, r))) :
    p.drain b = (a :: (p.drain r).1, (p.drain r).2) := by
  rw [drain]
  split <;> simp_all

/-- The induction along a drain: on the length of the buffer, by what the parser does with it. -/
theorem drain_induction {motive : List σ → Prop} (failed : ∀ b e, p.take b = .error e → motive b)
    (waiting : ∀ b, p.take b = .ok none → motive b)
    (taken : ∀ b a r, p.take b = .ok (some (a, r)) → motive r → motive b)
    (b : List σ) : motive b := by
  match h : p.take b with
  | .error e => exact failed b e h
  | .ok none => exact waiting b h
  | .ok (some (a, r)) =>
    have := p.shrinks h
    exact taken b a r h (drain_induction failed waiting taken r)
termination_by b.length

/-! ## Chunks -/

/-- With more input behind it, a drain that failed fails the same, and one that waits goes on from
    what it has left. -/
theorem drain_append (b c : List σ) : p.drain (b ++ c) = match p.drain b with
    | (as, .error e) => (as, .error e)
    | (as, .ok r) => (as ++ (p.drain (r ++ c)).1, (p.drain (r ++ c)).2) := by
  induction b using drain_induction (p := p) with
  | failed b e hb => rw [drain_of_error hb, drain_of_error (p.failed_append hb c)]
  | waiting b hb =>
    rw [drain_of_none hb]
    rfl
  | taken b a r hb ih =>
    rw [drain_of_some hb, drain_of_some (p.taken_append hb c), ih]
    obtain ⟨as, e | r'⟩ := p.drain r
    · rfl
    · rfl

/-- **CHUNKS CANNOT BE SEEN**: feeding chunk by chunk delivers what draining
    the whole input delivers. -/
theorem feed_eq_drain (b : List σ) (cs : List (List σ)) :
    p.feed b cs = p.drain (b ++ cs.flatten) := by
  induction cs generalizing b with
  | nil => rw [feed, flatten_nil, append_nil]
  | cons c cs ih =>
    rw [feed, flatten_cons, drain_append]
    split
    · rfl
    · rw [ih, append_assoc]

end Parser

/-! ## Encodings -/

section Encodings

variable (p : Parser σ α ε) (encode : α → List σ) (Valid : α → Prop)

/-- The stream of a list of items. -/
def encodeAll (as : List α) : List σ := as.flatMap encode

/-- The parser takes back every valid item, whatever follows it. -/
def TakesBack : Prop :=
  ∀ a, Valid a → ∀ c, p.take (encode a ++ c) = .ok (some (a, c))

/-- The stream is one of valid encodings and nothing else. -/
def Whole (b : List σ) : Prop :=
  ∃ as, (∀ a ∈ as, Valid a) ∧ b = encodeAll encode as

/-- The items of the longest prefix that is made of valid encodings. -/
structure Longest (b : List σ) (as : List α) : Prop where
  valid : ∀ a ∈ as, Valid a
  isPrefix : encodeAll encode as <+: b
  longest : ∀ bs, (∀ a ∈ bs, Valid a) → encodeAll encode bs <+: b →
    (encodeAll encode bs).length ≤ (encodeAll encode as).length

variable {p encode Valid} {a : α} {as bs : List α} {b c : List σ}

theorem encodeAll_cons : encodeAll encode (a :: as) = encode a ++ encodeAll encode as :=
  flatMap_cons

theorem encodeAll_append :
    encodeAll encode (as ++ bs) = encodeAll encode as ++ encodeAll encode bs :=
  flatMap_append

/-- A stream of encodings is drained to its items, and the drain goes on. -/
theorem drain_encodeAll (h : TakesBack p encode Valid) (has : ∀ a ∈ as, Valid a) (c : List σ) :
    p.drain (encodeAll encode as ++ c) = (as ++ (p.drain c).1, (p.drain c).2) := by
  induction as with
  | nil => rfl
  | cons a as ih =>
    have htake : p.take (encodeAll encode (a :: as) ++ c)
        = .ok (some (a, encodeAll encode as ++ c)) := by
      rw [encodeAll_cons, append_assoc]
      exact h a (has a mem_cons_self) _
    have hrest := ih fun x hx => has x (mem_cons_of_mem a hx)
    rw [Parser.drain_of_some htake, hrest]
    rfl

/-- The stream without an item holds none. -/
theorem encode_ne_nil (h : TakesBack p encode Valid) (ha : Valid a) : encode a ≠ [] := by
  intro hnil
  have htake := h a ha []
  rw [hnil, append_nil] at htake
  exact absurd (p.shrinks htake) (Nat.lt_irrefl _)

/-- Fewer items are a shorter stream. -/
theorem length_encodeAll_lt (h : TakesBack p encode Valid)
    (has : ∀ a ∈ as, Valid a) (hbs : bs <+: as) (hne : bs ≠ as) :
    (encodeAll encode bs).length < (encodeAll encode as).length := by
  obtain ⟨cs, rfl⟩ := hbs
  cases cs with
  | nil => exact absurd (append_nil bs).symm hne
  | cons x xs =>
    have hx : encode x ≠ [] :=
      encode_ne_nil h (has x (mem_append_right bs mem_cons_self))
    have hpos := length_pos_iff.mpr hx
    rw [encodeAll_append, encodeAll_cons, length_append, length_append]
    omega

/-- The items of a prefix of encodings are the first the reader delivers. -/
theorem isPrefix_drain (h : TakesBack p encode Valid)
    (has : ∀ a ∈ as, Valid a) (hb : encodeAll encode as <+: b) :
    as <+: (p.drain b).1 := by
  obtain ⟨c, rfl⟩ := hb
  rw [drain_encodeAll h has]
  exact ⟨_, rfl⟩

/-- **A STREAM SPLITS IN ONE WAY**: there is one longest prefix. -/
theorem Longest.unique (h : TakesBack p encode Valid)
    (ha : Longest encode Valid b as) (hb : Longest encode Valid b bs) :
    as = bs := by
  have hcmp := prefix_or_prefix_of_prefix (isPrefix_drain h ha.valid ha.isPrefix)
    (isPrefix_drain h hb.valid hb.isPrefix)
  by_contra hne
  cases hcmp with
  | inl hle =>
    exact absurd (ha.longest bs hb.valid hb.isPrefix)
      (Nat.not_le.mpr (length_encodeAll_lt h hb.valid hle hne))
  | inr hle =>
    exact absurd (hb.longest as ha.valid ha.isPrefix)
      (Nat.not_le.mpr (length_encodeAll_lt h ha.valid hle (Ne.symm hne)))

/-- A prefix of encodings behind which no encoding begins is the longest. -/
theorem longest_of_stuck (h : TakesBack p encode Valid) (has : ∀ a ∈ as, Valid a)
    (hstuck : ∀ a, Valid a → ¬ encode a <+: c) :
    Longest encode Valid (encodeAll encode as ++ c) as where
  valid := has
  isPrefix := ⟨c, rfl⟩
  longest := by
    intro bs hbs hpre
    have hcmp := prefix_or_prefix_of_prefix
      (isPrefix_drain h has ⟨c, rfl⟩) (isPrefix_drain h hbs hpre)
    cases hcmp with obtain ⟨xs, rfl⟩ := hle
    | inr hle =>
      rw [encodeAll_append, length_append]
      exact Nat.le_add_right ..
    | inl hle =>
      cases xs with
      | nil => rw [append_nil]
      | cons x xs =>
        -- the first item more would have to begin where nothing does
        rw [encodeAll_append, prefix_append_right_inj] at hpre
        have hx := hbs x (mem_append_right as mem_cons_self)
        exact absurd ((prefix_append _ _).trans hpre) (hstuck x hx)

/-- Every stream is a prefix of encodings and a rest where none begins. -/
theorem exists_longest (h : TakesBack p encode Valid) (b : List σ) :
    ∃ as c, b = encodeAll encode as ++ c ∧ (∀ a ∈ as, Valid a)
      ∧ ∀ a, Valid a → ¬ encode a <+: c := by
  by_cases hb : ∃ a, Valid a ∧ encode a <+: b
  · obtain ⟨a, ha, c, rfl⟩ := hb
    have : c.length < (encode a ++ c).length := by
      have hpos := length_pos_iff.mpr (encode_ne_nil h ha)
      rw [length_append]
      omega
    obtain ⟨as, d, hc, has, hd⟩ := exists_longest h c
    refine ⟨a :: as, d, ?_, forall_mem_cons.mpr ⟨ha, has⟩, hd⟩
    rw [hc, encodeAll_cons, append_assoc]
  · exact ⟨[], b, rfl, fun _ hx => (nomatch hx), fun a ha hpre =>
      hb ⟨a, ha, hpre⟩⟩
termination_by b.length

end Encodings

end Streams
