import EventCatalog.Json.Parser
import EventCatalog.Json.Printer
import EventCatalog.Proofs.Numerals

/-!
# Written JSON read back

`Json.render` writes a value and `Json.read` reads it back (`read_render`), provided that the value
is `Readable`: its whole numbers fit into 64 bits, its containers are not nested too deep, and it
holds no floating-point number. Texts may hold any character.

The reader works on what is left of the text. So each lemma here is about a text that goes on behind
what was written, and leaves just that: `stringBody_append` for strings, `number_append` for whole
numbers, `value_append` for values. A number is the only value that may run on into the text behind
it; `NumberEnds` says that it does not.

The reader's count of steps never runs out before the text does: every step that it counts consumes
a character (`value_append` asks for as many steps as there are characters).
-/

namespace EventCatalog.Json

open Text (NoDigitAhead)

/-! ### Strings -/

/-- The digits that are written for a number below 16 have its value. -/
private theorem hexValue?_hexDigit : ∀ n, n < 16 → hexValue? (hexDigit n) = some n := by
  decide

/-- The four digits of an escaped control character give its code. -/
private theorem unit?_escape {n : Nat} (h : n < 256) :
    unit? '0' '0' (hexDigit (n / 16)) (hexDigit (n % 16)) = some n := by
  have h₀ : hexValue? '0' = some 0 := rfl
  simp only [unit?, h₀, hexValue?_hexDigit (n / 16) (by omega),
    hexValue?_hexDigit (n % 16) (by omega), Option.bind_eq_bind, Option.bind_some,
    Option.some.injEq]
  omega

/-- One written character is read back as that character. -/
theorem stringBody_escapeChar (c : Char) (s : List Char) :
    stringBody none (escapeChar c ++ s) = consChar c (stringBody none s) := by
  unfold escapeChar
  split
  · next h => subst h; simp [stringBody, escaped?]
  split
  · next h => subst h; simp [stringBody, escaped?]
  split
  · next h => subst h; simp [stringBody, escaped?]
  split
  · next h => subst h; simp [stringBody, escaped?]
  split
  · next h => subst h; simp [stringBody, escaped?]
  split
  · next h => subst h; simp [stringBody, escaped?]
  split
  · next h => subst h; simp [stringBody, escaped?]
  split
  · -- a control character, by its code
    next h =>
    -- its code is below the surrogates, so the unit stands for itself
    have hunit := unit?_escape (n := c.toNat) (by omega)
    have h₁ : (0xD800 ≤ c.toNat && c.toNat ≤ 0xDBFF) = false := by
      simp
      omega
    have h₂ : (0xDC00 ≤ c.toNat && c.toNat ≤ 0xDFFF) = false := by
      simp
      omega
    rw [List.cons_append, List.cons_append, stringBody.eq_def]
    simp only [List.cons_append, List.nil_append, hunit, h₁, h₂, Bool.false_eq_true, if_false,
      Char.ofNat_toNat]
  · -- any other character stands for itself
    next hquote hback _ _ _ _ _ hcontrol =>
    rw [List.singleton_append, stringBody.eq_def]
    split
    · next h => exact absurd h (by simp)
    · next h => exact absurd (List.cons.inj h).1 hquote
    · next h => exact absurd (List.cons.inj h).1 hback
    · next h => exact absurd (List.cons.inj h).1 hback
    · next h =>
      obtain ⟨rfl, rfl⟩ := List.cons.inj h
      simp [hcontrol]

/-- The characters of a written string are read back up to its closing quote. -/
theorem stringBody_append (cs s : List Char) :
    stringBody none (cs.flatMap escapeChar ++ '"' :: s) = some (cs, s) := by
  induction cs with
  | nil => simp [stringBody]
  | cons c cs ih =>
    rw [List.flatMap_cons, List.append_assoc, stringBody_escapeChar, ih]
    rfl

/-! ### Whole numbers -/

/-- The text does not go on with anything that could belong to a number. -/
def NumberEnds (s : List Char) : Prop :=
  ∀ c ∈ s.head?, c.isDigit = false ∧ c ≠ '.' ∧ c ≠ 'e' ∧ c ≠ 'E'

theorem NumberEnds.nil : NumberEnds [] := by
  intro c h
  simp at h

theorem NumberEnds.cons {c : Char} {s : List Char}
    (h : c.isDigit = false ∧ c ≠ '.' ∧ c ≠ 'e' ∧ c ≠ 'E') : NumberEnds (c :: s) := by
  intro d hd
  obtain rfl : c = d := by simpa using hd
  exact h

theorem NumberEnds.noDigit {s : List Char} (h : NumberEnds s) : NoDigitAhead s :=
  fun c hc => (h c hc).1

/-- Digits never make a number smaller than what stands in front of them. -/
private theorem le_ofDigitChars (ds : List Char) (n : Nat) : n ≤ Nat.ofDigitChars 10 ds n := by
  induction ds generalizing n with
  | nil => simp
  | cons c ds ih =>
    rw [Nat.ofDigitChars_cons]
    exact Nat.le_trans (by omega) (ih _)

/-- All digits fit into the significand if their number does. -/
private theorem takeDigits_append {ds s : List Char} {n : Nat} (hd : ∀ c ∈ ds, c.isDigit = true)
    (hs : NoDigitAhead s) (hmax : Nat.ofDigitChars 10 ds n ≤ maxSignificand) :
    takeDigits n (ds ++ s) = (Nat.ofDigitChars 10 ds n, ds.length, s) := by
  induction ds generalizing n with
  | nil =>
    cases s with
    | nil => simp [takeDigits]
    | cons c s => simp [takeDigits, hs c (by simp)]
  | cons c ds ih =>
    rw [Nat.ofDigitChars_cons] at hmax ⊢
    -- the digits so far are no more than all of them, so they fit as well
    have hle := le_ofDigitChars ds (10 * n + (c.toNat - '0'.toNat))
    have hfit : 10 * n + (c.toNat - '0'.toNat) ≤ maxSignificand := Nat.le_trans hle hmax
    rw [List.cons_append, takeDigits, if_pos (hd c (by simp))]
    simp only [hfit, if_true, ih (fun d h => hd d (by simp [h])) hmax, List.length_cons]

/-- A numeral of a positive number does not begin with a zero. -/
private theorem toDigits_eq_cons {n : Nat} (h : 0 < n) :
    ∃ c ds, Nat.toDigits 10 n = c :: ds ∧ c ≠ '0' := by
  induction n using Nat.strongRecOn with
  | _ n ih =>
    rw [Nat.toDigits_eq_if (by decide)]
    split
    · next hlt =>
      refine ⟨n.digitChar, [], rfl, ?_⟩
      intro hzero
      have := Nat.toNat_digitChar_of_lt_ten hlt
      rw [hzero] at this
      have h0 : '0'.toNat = 48 := rfl
      omega
    -- the last digit comes off the end, so the first one is that of the tenth part
    · next hge =>
      obtain ⟨c, ds, hds, hc⟩ := ih (n / 10) (by omega) (by omega)
      exact ⟨c, ds ++ [(n % 10).digitChar], by rw [hds]; rfl, hc⟩

/-- What stands behind a whole number shows that it has neither fraction nor exponent. -/
private theorem tail_of_numberEnds {negative : Bool} {n : Nat} {s : List Char} :
    NumberEnds s →
    (match s with
      | '.' :: r => fraction negative n 0 r
      | 'e' :: _ | 'E' :: _ => finish negative n 0 s
      | _ => some (wholeNumber negative n, s)) = some (wholeNumber negative n, s) := by
  intro hs
  split
  · exact absurd rfl (hs '.' (by simp)).2.1
  · exact absurd rfl (hs 'e' (by simp)).2.2.1
  · exact absurd rfl (hs 'E' (by simp)).2.2.2
  · rfl

/-- A numeral is read back as a whole number. -/
private theorem unsignedNumber_append (negative : Bool) {n : Nat} {s : List Char}
    (hmax : n ≤ maxSignificand) (hs : NumberEnds s) :
    unsignedNumber negative (Nat.toDigits 10 n ++ s) = some (wholeNumber negative n, s) := by
  rcases Nat.eq_zero_or_pos n with rfl | hpos
  · -- a zero has to stand alone
    rw [Nat.toDigits_zero, List.singleton_append]
    cases s with
    | nil => rfl
    | cons c s =>
      have hc := (hs c (by simp)).1
      simp only [unsignedNumber, hc, Bool.false_eq_true, if_false]
      exact tail_of_numberEnds hs
  · obtain ⟨c, ds, hds, hzero⟩ := toDigits_eq_cons hpos
    have hd : ∀ d ∈ c :: ds, d.isDigit = true := by
      intro d h
      exact Text.isDigit_of_mem_toDigits (hds ▸ h)
    have hvalue : Nat.ofDigitChars 10 ds (c.toNat - '0'.toNat) = n := by
      have h := Text.digitsValue_toDigits n
      rw [hds, Text.digitsValue_eq, Nat.ofDigitChars_cons, Nat.mul_zero, Nat.zero_add] at h
      exact h
    have htake := takeDigits_append (fun d h => hd d (List.mem_cons_of_mem _ h)) hs.noDigit
      (by rw [hvalue]; exact hmax)
    -- no digit is left over, so none is dropped
    have hcount : countDigits s = (0, s) := by
      have hnone : ∀ c ∈ ([] : List Char), c.isDigit = true := by simp
      have h₁ := Text.takeWhile_isDigit_append hnone hs.noDigit
      have h₂ := Text.dropWhile_isDigit_append hnone hs.noDigit
      simp only [List.nil_append] at h₁ h₂
      simp [countDigits, h₁, h₂]
    rw [hds, List.cons_append, unsignedNumber, if_pos (hd c (by simp)), htake]
    · simp only [hcount, hvalue, if_true]
      exact tail_of_numberEnds hs
    · exact hzero

/-- A written whole number that fits into 64 bits is read back. -/
theorem number_append {n : Int} {s : List Char} (hl : -9223372036854775808 ≤ n)
    (hg : n ≤ 18446744073709551615) (hs : NumberEnds s) :
    number (renderInt n ++ s) = some (.int n, s) := by
  have hmax : n.natAbs ≤ maxSignificand := by
    have : maxSignificand = 18446744073709551615 := rfl
    omega
  have hread := fun negative => unsignedNumber_append negative hmax hs
  unfold renderInt
  split
  · next hneg =>
    rw [List.cons_append, number, hread]
    simp only [wholeNumber, Bool.not_true, Bool.false_eq_true, if_false, Option.some.injEq,
      Prod.mk.injEq, and_true]
    -- a number below zero is never minus zero
    rw [if_neg (by simp; omega)]
    congr 1
    omega
  · next hpos =>
    -- a numeral has no minus sign in front
    rw [number.eq_def]
    split
    · next h =>
      have hmem : '-' ∈ Nat.toDigits 10 n.natAbs := by
        cases hds : Nat.toDigits 10 n.natAbs with
        | nil => exact absurd hds Nat.toDigits_ne_nil
        | cons c ds =>
          rw [hds, List.cons_append] at h
          simp [(List.cons.inj h).1]
      exact absurd (Text.isDigit_of_mem_toDigits hmem) (by decide)
    · rw [hread]
      simp only [wholeNumber, Bool.not_false, if_true, Option.some.injEq, Prod.mk.injEq, and_true]
      congr 1
      omega

/-! ### Values -/

/-- The value is read back where containers may be nested `depth` deep. -/
inductive Readable : Nat → Json → Prop
  | null {depth : Nat} : Readable depth .null
  | bool {depth : Nat} (b : Bool) : Readable depth (.bool b)
  /-- Whole numbers fit into 64 bits, with or without a sign. -/
  | int {depth : Nat} {n : Int} (hl : -9223372036854775808 ≤ n) (hg : n ≤ 18446744073709551615) :
    Readable depth (.int n)
  | str {depth : Nat} (s : String) : Readable depth (.str s)
  | arr {depth : Nat} {items : List Json} (h : ∀ v ∈ items, Readable depth v) :
    Readable (depth + 1) (.arr items)
  | obj {depth : Nat} {fields : List (String × Json)} (h : ∀ f ∈ fields, Readable depth f.2) :
    Readable (depth + 1) (.obj fields)

/-- A value is read back from its text, whatever stands behind. -/
def ReadsBack (depth : Nat) (v : Json) : Prop :=
  ∀ (fuel : Nat) (s : List Char), (renderChars v).length ≤ fuel → NumberEnds s →
    value fuel depth (renderChars v ++ s) = (v, some s)

private theorem skipBlanks_cons {c : Char} {s : List Char} (h : isBlank c = false) :
    skipBlanks (c :: s) = c :: s := by
  rw [skipBlanks, List.dropWhile_cons_of_neg (by simp [h])]

/-- A number is either a numeral or has a minus sign in front. -/
private theorem renderInt_eq_cons (n : Int) :
    ∃ c cs, renderInt n = c :: cs ∧ (c.isDigit = true ∨ c = '-') := by
  unfold renderInt
  split
  · exact ⟨'-', _, rfl, .inr rfl⟩
  · cases hds : Nat.toDigits 10 n.natAbs with
    | nil => exact absurd hds Nat.toDigits_ne_nil
    | cons c cs =>
      exact ⟨c, cs, rfl, .inl (Text.isDigit_of_mem_toDigits (by rw [hds]; simp))⟩

/-- What a number begins with is no blank and begins nothing else. -/
private theorem number_head {c : Char} (h : c.isDigit = true ∨ c = '-') :
    isBlank c = false ∧ c ≠ '"' ∧ c ≠ '[' ∧ c ≠ ']' ∧ c ≠ '\x7b' ∧ c ≠ 'n' ∧ c ≠ 't' ∧ c ≠ 'f' := by
  rcases h with h | rfl
  · refine ⟨?_, ?_, ?_, ?_, ?_, ?_, ?_, ?_⟩
    · simp only [isBlank, Bool.or_eq_false_iff, beq_eq_false_iff_ne]
      refine ⟨⟨⟨?_, ?_⟩, ?_⟩, ?_⟩ <;> (rintro rfl; exact absurd h (by decide))
    all_goals (rintro rfl; exact absurd h (by decide))
  · decide

/-- What a value begins with is no blank and closes no array. -/
private theorem renderChars_eq_cons {depth : Nat} {v : Json} (h : Readable depth v) :
    ∃ c cs, renderChars v = c :: cs ∧ isBlank c = false ∧ c ≠ ']' := by
  cases h with
  | null => exact ⟨'n', _, rfl, by decide, by decide⟩
  | bool b => cases b <;> exact ⟨_, _, rfl, by decide, by decide⟩
  | int =>
    next n _ _ =>
    obtain ⟨c, cs, hcs, hc⟩ := renderInt_eq_cons n
    obtain ⟨hblank, -, -, hclose, -⟩ := number_head hc
    exact ⟨c, cs, by rw [renderChars, hcs], hblank, hclose⟩
  | str s => exact ⟨'"', _, rfl, by decide, by decide⟩
  | arr => exact ⟨'[', _, rfl, by decide, by decide⟩
  | obj => exact ⟨'\x7b', _, rfl, by decide, by decide⟩

/-- A number is read where a value is expected. -/
private theorem value_number {fuel depth : Nat} {c : Char} {cs s : List Char} {v : Json}
    (hc : c.isDigit = true ∨ c = '-') (h : number (c :: cs) = some (v, s)) :
    value (fuel + 1) depth (c :: cs) = (v, some s) := by
  obtain ⟨hblank, hquote, harr, -, hobj, hn, ht, hf⟩ := number_head hc
  rw [value, skipBlanks_cons hblank]
  split
  · next h' => exact absurd (List.cons.inj h').1 hquote
  · next h' => exact absurd (List.cons.inj h').1 harr
  · next h' => exact absurd (List.cons.inj h').1 hobj
  · next h' => exact absurd (List.cons.inj h').1 hn
  · next h' => exact absurd (List.cons.inj h').1 ht
  · next h' => exact absurd (List.cons.inj h').1 hf
  · rw [h]

/-- The items of an array are read back up to its closing bracket. -/
private theorem items_append {depth : Nat} {v : Json} {rest : List Json}
    (hv : ∀ w ∈ v :: rest, ReadsBack depth w) (fuel : Nat) (s : List Char)
    (hfuel : (renderItems (v :: rest)).length < fuel) :
    items fuel depth (renderItems (v :: rest) ++ ']' :: s) = (v :: rest, some s) := by
  induction rest generalizing v fuel with
  | nil =>
    -- the last item, behind which the bracket stands
    obtain ⟨fuel, rfl⟩ : ∃ f, fuel = f + 1 := ⟨fuel - 1, by omega⟩
    have hread := hv v (by simp) fuel (']' :: s) (by
      simp only [renderItems] at hfuel
      omega) (.cons (by decide))
    rw [renderItems, items, hread]
    simp only [skipBlanks_cons (show isBlank ']' = false by decide)]
  | cons w rest ih =>
    -- an item, behind which a comma and the other items stand
    obtain ⟨fuel, rfl⟩ : ∃ f, fuel = f + 1 := ⟨fuel - 1, by omega⟩
    simp only [renderItems, List.length_append, List.length_cons] at hfuel
    have hread := hv v (by simp) fuel
      (',' :: (renderItems (w :: rest) ++ ']' :: s)) (by omega) (.cons (by decide))
    have hrest := ih (fun x hx => hv x (List.mem_cons_of_mem _ hx)) fuel (by omega)
    rw [renderItems, List.append_assoc, List.cons_append, items, hread]
    simp only [skipBlanks_cons (show isBlank ',' = false by decide), hrest]

/-- The fields of an object are read back up to its closing brace. -/
private theorem fields_append {depth : Nat} {f : String × Json} {rest : List (String × Json)}
    (hf : ∀ g ∈ f :: rest, ReadsBack depth g.2) (fuel : Nat) (s : List Char)
    (hfuel : (renderFields (f :: rest)).length < fuel) :
    fields fuel depth (renderFields (f :: rest) ++ '\x7d' :: s) = (f :: rest, some s) := by
  induction rest generalizing f fuel with
  | nil =>
    obtain ⟨k, v⟩ := f
    obtain ⟨fuel, rfl⟩ : ∃ f, fuel = f + 1 := ⟨fuel - 1, by omega⟩
    simp only [renderFields, List.length_append, List.length_cons] at hfuel
    have hread := hf (k, v) (by simp) fuel ('\x7d' :: s) (by
      simp only
      omega) (.cons (by decide))
    -- the name is a string, with the colon behind it
    have hkey := stringBody_append k.toList (':' :: (renderChars v ++ '\x7d' :: s))
    simp only [renderFields, renderString, List.cons_append, List.append_assoc,
      List.nil_append] at hread ⊢
    rw [fields, skipBlanks_cons (by decide)]
    simp only [hkey, skipBlanks_cons (show isBlank ':' = false by decide), hread,
      skipBlanks_cons (show isBlank '\x7d' = false by decide), String.ofList_toList]
  | cons g rest ih =>
    obtain ⟨k, v⟩ := f
    obtain ⟨fuel, rfl⟩ : ∃ f, fuel = f + 1 := ⟨fuel - 1, by omega⟩
    simp only [renderFields, List.length_append, List.length_cons] at hfuel
    have hread := hf (k, v) (by simp) fuel
      (',' :: (renderFields (g :: rest) ++ '\x7d' :: s)) (by
        simp only
        omega) (.cons (by decide))
    have hrest := ih (fun x hx => hf x (List.mem_cons_of_mem _ hx)) fuel (by omega)
    have hkey := stringBody_append k.toList
      (':' :: (renderChars v ++ ',' :: (renderFields (g :: rest) ++ '\x7d' :: s)))
    simp only [renderFields, renderString, List.cons_append, List.append_assoc,
      List.nil_append] at hread ⊢
    rw [fields, skipBlanks_cons (by decide)]
    simp only [hkey, skipBlanks_cons (show isBlank ':' = false by decide), hread,
      skipBlanks_cons (show isBlank ',' = false by decide), hrest, String.ofList_toList]

/-- **Reading a value back.** The induction is on how the value is readable; a container hands the
reader on to its items or fields, with one level less to go. -/
theorem Readable.readsBack {depth : Nat} {v : Json} (h : Readable depth v) :
    ReadsBack depth v := by
  induction h with
  | null =>
    intro fuel s hfuel _
    obtain ⟨fuel, rfl⟩ : ∃ f, fuel = f + 1 := ⟨fuel - 1, by simp [renderChars] at hfuel; omega⟩
    rfl
  | bool b =>
    intro fuel s hfuel _
    obtain ⟨fuel, rfl⟩ : ∃ f, fuel = f + 1 :=
      ⟨fuel - 1, by cases b <;> simp [renderChars] at hfuel <;> omega⟩
    cases b <;> rfl
  | @int depth n hl hg =>
    intro fuel s hfuel hs
    obtain ⟨c, cs, hcs, hc⟩ := renderInt_eq_cons n
    have hnumber := number_append hl hg hs
    -- a number is recognised by its first character alone
    rw [renderChars, hcs] at hfuel ⊢
    rw [hcs] at hnumber
    obtain ⟨fuel, rfl⟩ : ∃ f, fuel = f + 1 := ⟨fuel - 1, by simp at hfuel; omega⟩
    exact value_number hc hnumber
  | str t =>
    intro fuel s hfuel _
    obtain ⟨fuel, rfl⟩ : ∃ f, fuel = f + 1 :=
      ⟨fuel - 1, by simp [renderChars, renderString] at hfuel; omega⟩
    have hbody := stringBody_append t.toList s
    simp only [renderChars, renderString, List.cons_append, List.append_assoc, List.nil_append]
    rw [value, skipBlanks_cons (by decide)]
    simp only [hbody, String.ofList_toList]
  | @arr depth items h ih =>
    intro fuel s hfuel _
    obtain ⟨fuel, rfl⟩ : ∃ f, fuel = f + 1 := ⟨fuel - 1, by simp [renderChars] at hfuel; omega⟩
    simp only [renderChars, List.cons_append, List.append_assoc, List.nil_append,
      List.length_cons, List.length_append, List.length_nil] at hfuel ⊢
    rw [value, skipBlanks_cons (by decide)]
    cases items with
    | nil => rfl
    | cons v rest =>
      have hitems := items_append ih fuel s (by omega)
      -- the first item does not begin with the closing bracket
      obtain ⟨c, cs, hcs, hblank, hclose⟩ := renderChars_eq_cons (h v (by simp))
      obtain ⟨cs', hcs'⟩ : ∃ cs', renderItems (v :: rest) = c :: cs' := by
        cases rest with
        | nil => exact ⟨cs, by rw [renderItems, hcs]⟩
        | cons w rest => exact ⟨_, by rw [renderItems, hcs, List.cons_append]⟩
      rw [hcs'] at hitems ⊢
      simp only [List.cons_append, skipBlanks_cons hblank] at hitems ⊢
      split
      · next h' => exact absurd (List.cons.inj h').1 hclose
      · rw [hitems]
  | @obj depth fields h ih =>
    intro fuel s hfuel _
    obtain ⟨fuel, rfl⟩ : ∃ f, fuel = f + 1 := ⟨fuel - 1, by simp [renderChars] at hfuel; omega⟩
    simp only [renderChars, List.cons_append, List.append_assoc, List.nil_append,
      List.length_cons, List.length_append, List.length_nil] at hfuel ⊢
    rw [value, skipBlanks_cons (by decide)]
    cases fields with
    | nil => rfl
    | cons f rest =>
      have hfields := fields_append ih fuel s (by omega)
      -- the first field begins with the quote of its name
      obtain ⟨cs, hcs⟩ : ∃ cs, renderFields (f :: rest) = '"' :: cs := by
        cases rest with
        | nil => exact ⟨_, rfl⟩
        | cons g rest => exact ⟨_, rfl⟩
      rw [hcs] at hfields ⊢
      simp only [List.cons_append, skipBlanks_cons (show isBlank '"' = false by decide)]
        at hfields ⊢
      split
      · next h' => exact absurd (List.cons.inj h').1 (by decide)
      · rw [hfields]

/-- **A written value is read back**, and the text is that value and nothing more. -/
theorem read_render {v : Json} (h : Readable maxDepth v) : read v.render = (v, true) := by
  have hread := h.readsBack (2 * (renderChars v).length + 2) [] (by omega) .nil
  rw [List.append_nil] at hread
  simp only [read, render, String.toList_ofList, hread]
  rfl

end EventCatalog.Json
