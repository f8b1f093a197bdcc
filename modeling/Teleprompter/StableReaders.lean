import Mathlib.Data.List.Infix
import Mathlib.Data.List.TakeWhile

/-!
# Readers that do not depend on what follows

A reader takes a value off the front of its input. A stable one reads the same
when more input follows, as long as it left some of it; a closed one does so
even where it used up everything, so its values mark their own end. Both are
kept when readers are put together.
-/

namespace Teleprompter.StableReaders

/-- A reader of tokens, which fails or leaves the rest of the input. -/
abbrev Reader (τ : Type) := StateT (List τ) Option

variable {τ α β σ : Type}

/-- What was read stays when more follows behind a rest that is not empty. -/
structure Stable (p : Reader τ α) : Prop where
  /-- What is left is the rest of the input. -/
  suffix : ∀ {inp : List τ} {a : α} {rest : List τ}, p inp = some (a, rest) → rest <:+ inp
  /-- More input follows behind what is left. -/
  extend : ∀ {inp : List τ} {a : α} {rest : List τ} (more : List τ), p inp = some (a, rest) →
    rest ≠ [] → p (inp ++ more) = some (a, rest ++ more)

/-- What was read stays, whatever follows. -/
structure Closed (p : Reader τ α) : Prop where
  /-- What is left is the rest of the input. -/
  suffix : ∀ {inp : List τ} {a : α} {rest : List τ}, p inp = some (a, rest) → rest <:+ inp
  /-- More input follows behind what is left, even where that is nothing. -/
  extend : ∀ {inp : List τ} {a : α} {rest : List τ} (more : List τ), p inp = some (a, rest) →
    p (inp ++ more) = some (a, rest ++ more)

/-- A closed reader is stable. -/
theorem Closed.stable {p : Reader τ α} (h : Closed p) : Stable p :=
  ⟨h.suffix, fun more hp _ => h.extend more hp⟩

/-- What a sequence of two readers did. -/
theorem bind_eq_some {p : Reader τ α} {f : α → Reader τ β} {inp rest : List τ} {b : β} :
    (p >>= f) inp = some (b, rest) ↔ ∃ a middle, p inp = some (a, middle) ∧
      f a middle = some (b, rest) := by
  have hbind : (p >>= f) inp = (p inp).bind fun r => f r.1 r.2 := rfl
  rw [hbind, Option.bind_eq_some_iff]
  constructor
  · rintro ⟨⟨a, middle⟩, hp, hf⟩
    exact ⟨a, middle, hp, hf⟩
  · rintro ⟨a, middle, hp, hf⟩
    exact ⟨(a, middle), hp, hf⟩

/-- Reading nothing is closed. -/
theorem Closed.pure (a : α) : Closed (pure a : Reader τ α) := by
  have hpure (inp : List τ) : (Pure.pure a : Reader τ α) inp = some (a, inp) := rfl
  constructor
  · intro inp b rest h
    rw [hpure] at h
    cases h
    exact List.suffix_rfl
  · intro inp b rest more h
    rw [hpure] at h ⊢
    cases h
    rfl

/-- A reader that fails is closed. -/
theorem Closed.failure : Closed (failure : Reader τ α) := by
  have hfail (inp : List τ) : (Alternative.failure : Reader τ α) inp = none := rfl
  constructor
  · intro inp b rest h
    rw [hfail] at h
    cases h
  · intro inp b rest more h
    rw [hfail] at h
    cases h

/-- Stable readers in sequence are stable. -/
theorem Stable.bind {p : Reader τ α} {f : α → Reader τ β} (hp : Stable p)
    (hf : ∀ a, Stable (f a)) : Stable (p >>= f) := by
  constructor
  · intro inp b rest h
    obtain ⟨a, middle, hfirst, hsecond⟩ := bind_eq_some.mp h
    exact ((hf a).suffix hsecond).trans (hp.suffix hfirst)
  · intro inp b rest more h hne
    obtain ⟨a, middle, hfirst, hsecond⟩ := bind_eq_some.mp h
    have hmiddle : middle ≠ [] := by
      rintro rfl
      exact hne (List.suffix_nil.mp ((hf a).suffix hsecond))
    exact bind_eq_some.mpr
      ⟨a, middle ++ more, hp.extend more hfirst hmiddle, (hf a).extend more hsecond hne⟩

/-- Closed readers in sequence are closed. -/
theorem Closed.bind {p : Reader τ α} {f : α → Reader τ β} (hp : Closed p)
    (hf : ∀ a, Closed (f a)) : Closed (p >>= f) := by
  constructor
  · intro inp b rest h
    obtain ⟨a, middle, hfirst, hsecond⟩ := bind_eq_some.mp h
    exact ((hf a).suffix hsecond).trans (hp.suffix hfirst)
  · intro inp b rest more h
    obtain ⟨a, middle, hfirst, hsecond⟩ := bind_eq_some.mp h
    exact bind_eq_some.mpr ⟨a, middle ++ more, hp.extend more hfirst, (hf a).extend more hsecond⟩

section Tokens

/-- The next token, which stays where it is. -/
def peek : Reader τ (Option τ) := fun inp => some (inp.head?, inp)

/-- The tokens up to the first one that fails a test. -/
def takeAll (p : τ → Bool) : Reader τ (List τ) := fun inp =>
  some (inp.takeWhile p, inp.dropWhile p)

/-- One token that passes a test. -/
def satisfy (p : τ → Bool) : Reader τ τ
  | [] => none
  | c :: rest => if p c = true then some (c, rest) else none

/-- Looking at the next token is stable. -/
theorem Stable.peek : Stable (peek : Reader τ (Option τ)) := by
  constructor
  · intro inp a rest h
    cases h
    exact List.suffix_rfl
  · intro inp a rest more h hne
    cases h
    cases inp with
    | nil => contradiction
    | cons c inp => rfl

/-- A run of tokens ends where one fails the test, and not where the input ends. -/
theorem Stable.takeAll (p : τ → Bool) : Stable (takeAll p) := by
  constructor
  · intro inp a rest h
    cases h
    exact List.dropWhile_suffix p
  · intro inp a rest more h hne
    cases h
    rw [StableReaders.takeAll]
    have hnot : ¬ ∀ c ∈ inp, p c = true := fun hall =>
      hne (List.dropWhile_eq_nil_iff.mpr hall)
    induction inp with
    | nil => exact absurd (fun _ h => nomatch h) hnot
    | cons c inp ih =>
      cases hc : p c with
      | false => simp [hc]
      | true =>
        have hnext : ¬ ∀ d ∈ inp, p d = true := fun hall =>
          hnot fun d hd => (List.mem_cons.mp hd).elim (fun h => h ▸ hc) (hall d)
        have hne' : inp.dropWhile p ≠ [] := fun hnil => hnext (List.dropWhile_eq_nil_iff.mp hnil)
        have hrest := ih hne' hnext
        simp only [Option.some.injEq, Prod.mk.injEq] at hrest
        simp [hc, hrest.1, hrest.2]

/-- One token is read whatever follows it. -/
theorem Closed.satisfy (p : τ → Bool) : Closed (satisfy p) := by
  constructor
  · intro inp a rest h
    cases inp with
    | nil => cases h
    | cons c inp =>
      rw [StableReaders.satisfy] at h
      split at h
      · cases h
        exact List.suffix_cons _ _
      · cases h
  · intro inp a rest more h
    cases inp with
    | nil => cases h
    | cons c inp =>
      rw [StableReaders.satisfy] at h
      rw [List.cons_append, StableReaders.satisfy]
      split at h
      · next hc =>
        cases h
        rw [if_pos hc]
      · cases h

end Tokens

section Items

variable [DecidableEq τ] {white : τ → Bool} {close comma : τ} {item : Reader τ α}
  {add : σ → α → σ}

/-- Where an item begins: at once, or behind a separator. -/
def itemStart (comma : τ) (first : Bool) (b : τ) (tail : List τ) : Option (List τ) :=
  if first = true then some (b :: tail) else if b = comma then some tail else none

/-- Items with separators between them up to a closing token, collected one by one.
The fuel bounds the number of items. -/
def items (white : τ → Bool) (close comma : τ) (item : Reader τ α) (add : σ → α → σ) :
    ℕ → Bool → σ → Reader τ σ
  | 0, _, _, _ => none
  | fuel + 1, first, acc, inp =>
    match inp.dropWhile white with
    | [] => none
    | b :: tail =>
      if b = close then some (acc, tail)
      else (itemStart comma first b tail).bind fun start => (item start).bind fun r =>
        items white close comma item add fuel false (add acc r.1) r.2

/-- What one round does: it reads the closing token, or an item and goes on. -/
theorem items_eq_some {fuel : ℕ} {first : Bool} {acc x : σ} {inp rest : List τ} :
    items white close comma item add (fuel + 1) first acc inp = some (x, rest) ↔
      ∃ b tail, inp.dropWhile white = b :: tail ∧
        (b = close ∧ acc = x ∧ tail = rest ∨
          b ≠ close ∧ ∃ start, itemStart comma first b tail = some start ∧
            ∃ a middle, item start = some (a, middle) ∧
              items white close comma item add fuel false (add acc a) middle = some (x, rest)) := by
  rw [items]
  cases hinp : inp.dropWhile white with
  | nil => simp
  | cons b tail =>
    simp only [List.cons.injEq]
    by_cases hclose : b = close
    · rw [if_pos hclose, Option.some_inj, Prod.mk.injEq]
      constructor
      · rintro ⟨hacc, htail⟩
        exact ⟨b, tail, ⟨rfl, rfl⟩, .inl ⟨hclose, hacc, htail⟩⟩
      · rintro ⟨_, _, ⟨rfl, rfl⟩, ⟨-, hacc, htail⟩ | ⟨hne, -⟩⟩
        · exact ⟨hacc, htail⟩
        · exact absurd hclose hne
    · rw [if_neg hclose, Option.bind_eq_some_iff]
      constructor
      · rintro ⟨start, hstart, h⟩
        obtain ⟨⟨a, middle⟩, hitem, hloop⟩ := Option.bind_eq_some_iff.mp h
        exact ⟨b, tail, ⟨rfl, rfl⟩, .inr ⟨hclose, start, hstart, a, middle, hitem, hloop⟩⟩
      · rintro ⟨_, _, ⟨rfl, rfl⟩, ⟨heq, -⟩ | ⟨-, start, hstart, a, middle, hitem, hloop⟩⟩
        · exact absurd heq hclose
        · exact ⟨start, hstart, Option.bind_eq_some_iff.mpr ⟨(a, middle), hitem, hloop⟩⟩

/-- An item starts within the input. -/
theorem itemStart_suffix {first : Bool} {b : τ} {tail start : List τ}
    (h : itemStart comma first b tail = some start) : start <:+ b :: tail := by
  rw [itemStart] at h
  split at h
  · cases h
    exact List.suffix_rfl
  · split at h
    · cases h
      exact List.suffix_cons _ _
    · cases h

/-- More input follows behind the start of an item. -/
theorem itemStart_append {first : Bool} {b : τ} {tail start : List τ}
    (h : itemStart comma first b tail = some start) (more : List τ) :
    itemStart comma first b (tail ++ more) = some (start ++ more) := by
  rw [itemStart] at h ⊢
  split at h
  · next hfirst =>
    cases h
    rw [if_pos hfirst, List.cons_append]
  · next hfirst =>
    split at h
    · next hcomma =>
      cases h
      rw [if_neg hfirst, if_pos hcomma]
    · cases h

/-- What a list of items leaves is the rest of its input. -/
theorem items_suffix (hitem : Stable item) {fuel : ℕ} {first : Bool} {acc x : σ}
    {inp rest : List τ}
    (h : items white close comma item add fuel first acc inp = some (x, rest)) : rest <:+ inp := by
  induction fuel generalizing first acc inp with
  | zero => cases h
  | succ fuel ih =>
    obtain ⟨b, tail, hinp, ⟨-, -, rfl⟩ | ⟨-, start, hstart, a, middle, hread, hloop⟩⟩ :=
      items_eq_some.mp h
    · exact (List.suffix_cons b tail).trans (hinp ▸ List.dropWhile_suffix white)
    · exact (((ih hloop).trans (hitem.suffix hread)).trans (itemStart_suffix hstart)).trans
        (hinp ▸ List.dropWhile_suffix white)

/-- A closed list of items reads the same with more behind it and with more fuel: where
the loop goes on behind an item, the item left something. -/
theorem items_extend (hitem : Stable item) {fuel fuel' : ℕ} (hfuel : fuel ≤ fuel')
    {first : Bool} {acc x : σ} {inp rest : List τ} (more : List τ)
    (h : items white close comma item add fuel first acc inp = some (x, rest)) :
    items white close comma item add fuel' first acc (inp ++ more) = some (x, rest ++ more) := by
  induction fuel generalizing fuel' first acc inp with
  | zero => cases h
  | succ fuel ih =>
    obtain ⟨fuel', rfl⟩ : ∃ n, fuel' = n + 1 := ⟨fuel' - 1, by omega⟩
    obtain ⟨b, tail, hinp, hround⟩ := items_eq_some.mp h
    have hinp' : (inp ++ more).dropWhile white = b :: (tail ++ more) := by
      rw [List.dropWhile_append, hinp]
      rfl
    rw [items_eq_some]
    refine ⟨b, tail ++ more, hinp', ?_⟩
    obtain ⟨hclose, hacc, rfl⟩ | ⟨hclose, start, hstart, a, middle, hread, hloop⟩ := hround
    · exact .inl ⟨hclose, hacc, rfl⟩
    · have hmiddle : middle ≠ [] := by
        rintro rfl
        cases fuel with
        | zero => cases hloop
        | succ fuel =>
          obtain ⟨_, _, hnil, -⟩ := items_eq_some.mp hloop
          cases hnil
      exact .inr ⟨hclose, start ++ more, itemStart_append hstart more, a, middle ++ more,
        hitem.extend more hread hmiddle, ih (by omega) hloop⟩

end Items

end Teleprompter.StableReaders
