import Mathlib.Data.List.Forall2
import SpecForest.Proofs.Source.Lossless
import SpecForest.Proofs.Source.Pairing

/-!
# Stretches of the table and their trees

The table of a source holds its trees: a stretch of indices that begins and ends between trees belongs to
the trees in it. On such a stretch no operation gets stuck, and each gives what its namesake gives on the
trees. All stretches that come up are of this kind: those between the brackets of a group, and the pieces
between the commas there.
-/

namespace SpecForest.Source

/-! ## Widths -/

/-- The number of tokens of some trees. -/
def width (ts : List TokenTree) : Nat := (TokenTree.allTokens ts).length

@[simp] theorem width_nil : width [] = 0 := rfl

@[simp] theorem width_token (t : Token) (rest : List TokenTree) :
    width (.token t :: rest) = width rest + 1 := by
  simp [width, TokenTree.allTokens, TokenTree.tokens, Nat.add_comm]

@[simp] theorem width_group (opening closing : Token) (d : Delimiter) (inner rest : List TokenTree) :
    width (.group opening closing d inner :: rest) = width inner + 2 + width rest := by
  simp [width, TokenTree.allTokens, TokenTree.tokens]
  omega

@[simp] theorem width_append (a b : List TokenTree) : width (a ++ b) = width a + width b := by
  simp [width]

theorem width_pos {ts : List TokenTree} (h : ts ≠ []) : 0 < width ts := by
  match ts with
  | [] => exact absurd rfl h
  | .token t :: rest => simp
  | .group opening closing d inner :: rest =>
    rw [width_group]
    omega

theorem length_le_width (ts : List TokenTree) : ts.length ≤ width ts := by
  induction ts with
  | nil => exact Nat.le_refl 0
  | cons t rest ih =>
    cases t with
    | token t => simpa using ih
    | group opening closing d inner =>
      rw [List.length_cons, width_group]
      omega

/-! ## Integers -/

theorem isSign_toLower {c : Char} (h : isSign c = false) : isSign c.toLower = false := by
  by_cases hc : c.toNat < 0x80
  · have hall : ∀ n < 0x80, isSign (Char.ofNat n) = false → isSign (Char.ofNat n).toLower = false := by
      decide
    have hthis := hall c.toNat hc
    rw [Char.ofNat_toNat] at hthis
    exact hthis h
  · have hupper : ¬ (c.val ≥ 'A'.val ∧ c.val ≤ 'Z'.val) := by
      rintro ⟨_, hle⟩
      exact hc (Nat.lt_of_le_of_lt (UInt32.le_iff_toNat_le.mp hle) (by decide))
    have hsame : c.toLower = c := dif_neg hupper
    rw [hsame]
    exact h

/-- A number, if an integer value can hold it. -/
def inRange? (value : Option Nat) : Option Int64 :=
  (value.filter (· ≤ greatestInteger)).map fun n : Nat => Int64.ofInt n

/-- A number without a sign is read as it stands. -/
theorem signedIn?_eq {base : Nat} {cs : List Char} (h : ∀ c ∈ cs, isSign c = false) :
    signedIn? base cs = inRange? (numberIn? base cs) := by
  have hvalue : signedIn? base cs = (((numberIn? base cs).map fun n => (n : Int)).filter fun n =>
      Int64.minValue.toInt ≤ n ∧ n ≤ Int64.maxValue.toInt).map Int64.ofInt := by
    unfold signedIn?
    split
    · exact absurd (h '+' List.mem_cons_self) (by decide)
    · exact absurd (h '-' List.mem_cons_self) (by decide)
    · rfl
  rw [hvalue]
  cases numberIn? base cs with
  | none => rfl
  | some n =>
    have hmax : Int64.maxValue.toInt = greatestInteger := by decide
    by_cases hn : n ≤ greatestInteger
    · have hle : (n : Int) ≤ Int64.maxValue.toInt := by omega
      simp [inRange?, Option.filter, hn, hle]
    · have hle : ¬ (n : Int) ≤ Int64.maxValue.toInt := by omega
      simp [inRange?, Option.filter, hn, hle]

/-- A leading zero without a letter behind it means octal. -/
theorem integerValue?_octal {text ds : List Char} {d : Char}
    (h : (text.filter (· != '_')).map Char.toLower = '0' :: d :: ds)
    (hx : d ≠ 'x') (ho : d ≠ 'o') (hb : d ≠ 'b') : integerValue? text = numberIn? 8 (d :: ds) := by
  unfold integerValue?
  rw [h]
  split
  · rename_i heq
    cases heq
    exact absurd rfl hx
  · rename_i heq
    cases heq
    exact absurd rfl ho
  · rename_i heq
    cases heq
    exact absurd rfl hb
  · rename_i heq
    cases heq
    rfl
  · rename_i hnone
    exact absurd rfl (hnone d ds)

theorem integerValue?_decimal {text : List Char}
    (h : ∀ d ds, (text.filter (· != '_')).map Char.toLower ≠ '0' :: d :: ds) :
    integerValue? text = numberIn? 10 ((text.filter (· != '_')).map Char.toLower) := by
  unfold integerValue?
  split
  · exact absurd (by assumption) (h _ _)
  · exact absurd (by assumption) (h _ _)
  · exact absurd (by assumption) (h _ _)
  · exact absurd (by assumption) (h _ _)
  · rfl

/-- The text of an integer token, which has no sign, is read as the number that it stands for. -/
theorem parseInteger_eq {text : List Char} (h : ∀ c ∈ text, isSign c = false) :
    parseInteger text = .ok (inRange? (integerValue? text)) := by
  have hlower : ∀ c ∈ (text.filter (· != '_')).map Char.toLower, isSign c = false := by
    intro c hc
    obtain ⟨d, hd, rfl⟩ := List.mem_map.mp hc
    exact isSign_toLower (h d (List.mem_filter.mp hd).1)
  unfold parseInteger
  split
  · rename_i ds hcs
    rw [integerValue?, hcs]
    rw [hcs] at hlower
    exact congrArg Except.ok (signedIn?_eq fun c hc => hlower c (by simp [hc]))
  · rename_i ds hcs
    rw [integerValue?, hcs]
    rw [hcs] at hlower
    exact congrArg Except.ok (signedIn?_eq fun c hc => hlower c (by simp [hc]))
  · rename_i ds hcs
    rw [integerValue?, hcs]
    rw [hcs] at hlower
    exact congrArg Except.ok (signedIn?_eq fun c hc => hlower c (by simp [hc]))
  · rename_i d ds hx ho hb hcs
    have hslice : slice ('0' :: d :: ds) 1 (String.ofList ('0' :: d :: ds)).utf8ByteSize = .ok (d :: ds) := by
      have hcut := slice_append ['0'] (d :: ds) []
      rw [List.append_nil] at hcut
      rw [utf8ByteSize_ofList]
      exact hcut
    rw [hcs] at hlower
    rw [hslice, integerValue?_octal hcs hx ho hb]
    exact congrArg Except.ok (signedIn?_eq fun c hc => hlower c (List.mem_cons_of_mem _ hc))
  · rename_i hzero
    rw [integerValue?_decimal hzero]
    exact congrArg Except.ok (signedIn?_eq hlower)

/-- Only the least integer has no negative, and it is out of the range of what is read. -/
theorem negate_ofInt {n : Nat} (hn : n ≤ greatestInteger) :
    negate (Int64.ofInt n) = .ok (Int64.ofInt (-n)) := by
  have hne : Int64.ofInt n ≠ Int64.minValue := by
    intro heq
    have hint := congrArg Int64.toInt heq
    simp only [greatestInteger] at hn
    rw [Int64.toInt_ofInt_of_le (by omega) (by omega), Int64.toInt_minValue] at hint
    omega
  rw [negate, if_neg hne, Int64.ofInt_neg]

/-! ## What the table holds -/

/-- The slot of a token, whether its partner is known or not. -/
def Slot.Shows (s : Slot) (t : Token) : Prop := s.kind = t.kind ∧ s.start = t.start ∧ s.stop = t.stop

@[simp] theorem Token.slot_kind (t : Token) : t.slot.kind = t.kind := rfl

@[simp] theorem Slot.pairedWith_kind (s : Slot) (j : Nat) : (s.pairedWith j).kind = s.kind := rfl

theorem Token.slot_shows (t : Token) : t.slot.Shows t := ⟨rfl, rfl, rfl⟩

theorem Slot.Shows.pairedWith {s : Slot} {t : Token} (h : s.Shows t) (j : Nat) : (s.pairedWith j).Shows t := h

mutual

theorem TokenTree.shows_slots (i : Nat) (t : TokenTree) : List.Forall₂ Slot.Shows (t.slots i) t.tokens := by
  cases t with
  | token t => exact .cons t.slot_shows .nil
  | group opening closing d inner =>
    refine .cons (opening.slot_shows.pairedWith _) (List.rel_append (shows_slotsAll (i + 1) inner) ?_)
    exact .cons (closing.slot_shows.pairedWith _) .nil

theorem shows_slotsAll (i : Nat) (ts : List TokenTree) :
    List.Forall₂ Slot.Shows (slotsAll i ts) (TokenTree.allTokens ts) := by
  cases ts with
  | nil => exact .nil
  | cons t rest => exact List.rel_append (t.shows_slots i) (shows_slotsAll _ rest)

end

theorem exists_getElem?_of_forall₂ {ss : List Slot} {ts : List Token} (h : List.Forall₂ Slot.Shows ss ts)
    {k : Nat} {t : Token} (ht : ts[k]? = some t) : ∃ s, ss[k]? = some s ∧ s.Shows t := by
  induction h generalizing k with
  | nil => simp at ht
  | @cons s u ss ts hs _ ih =>
    cases k with
    | zero =>
      cases ht
      exact ⟨s, rfl, hs⟩
    | succ k => exact ih ht

/-- The stretches of some pieces that stand one behind the other from an index on, with one token between each two. -/
def layOut (start : Nat) : List (List Token) → List Stretch
  | [] => []
  | piece :: rest => ⟨start, start + piece.length⟩ :: layOut (start + piece.length + 1) rest

/-- The table has the slots of some trees from an index on. -/
def Listing.Lays (l : Listing) (i : Nat) (ts : List TokenTree) : Prop :=
  ∃ rest, l.slots.drop i = slotsAll i ts ++ rest

/-- A listing holds some trees from an index on. -/
structure Listing.Holds (l : Listing) (i : Nat) (ts : List TokenTree) : Prop where
  slots : ∃ rest, l.slots.drop i = slotsAll i ts ++ rest
  run : RunIn l.source (TokenTree.allTokens ts)
  fits : AllFit ts

namespace Listing

variable {l : Listing}

theorem slotAt_of_drop {i : Nat} {s : Slot} {rest : List Slot} (h : l.slots.drop i = s :: rest) :
    l.slots[i]? = some s := by
  rw [← List.head?_drop, h, List.head?_cons]

theorem drop_add {i n : Nat} (ss : List Slot) {rest : List Slot} (h : l.slots.drop i = ss ++ rest)
    (hn : ss.length = n) : l.slots.drop (i + n) = rest := by
  rw [← List.drop_drop, h, ← hn, List.drop_left]

theorem Lays.append {i : Nat} {a b : List TokenTree} (h : l.Lays i (a ++ b)) :
    l.Lays i a ∧ l.Lays (i + width a) b := by
  obtain ⟨rest, hslots⟩ := h
  rw [slotsAll_append, List.append_assoc] at hslots
  exact ⟨⟨_, hslots⟩, rest, drop_add _ hslots (length_slotsAll i a)⟩

theorem Lays.token {i : Nat} {t : Token} {rest : List TokenTree} (h : l.Lays i (.token t :: rest)) :
    l.slots[i]? = some t.slot ∧ l.Lays (i + 1) rest := by
  obtain ⟨more, hslots⟩ := id h
  exact ⟨slotAt_of_drop hslots, (Lays.append (a := [.token t]) h).2⟩

theorem Lays.group {i : Nat} {opening closing : Token} {d : Delimiter} {inner rest : List TokenTree}
    (h : l.Lays i (.group opening closing d inner :: rest)) :
    l.slots[i]? = some (opening.slot.pairedWith (i + 1 + width inner)) ∧
      l.Lays (i + 1 + width inner + 1) rest := by
  obtain ⟨more, hslots⟩ := id h
  refine ⟨slotAt_of_drop hslots, ?_⟩
  have hindex : i + 1 + width inner + 1 = i + width [TokenTree.group opening closing d inner] := by
    simp
    omega
  rw [hindex]
  exact (Lays.append (a := [.group opening closing d inner]) h).2

theorem Holds.append {i : Nat} {a b : List TokenTree} (h : l.Holds i (a ++ b)) :
    l.Holds i a ∧ l.Holds (i + width a) b := by
  obtain ⟨hslots, hrun, hfits⟩ := h
  obtain ⟨hslotsa, hslotsb⟩ := Lays.append hslots
  rw [allTokens_append] at hrun
  obtain ⟨hruna, hrunb⟩ := runIn_append hrun
  obtain ⟨hfitsa, hfitsb⟩ := allFit_append.mp hfits
  exact ⟨⟨hslotsa, hruna, hfitsa⟩, hslotsb, hrunb, hfitsb⟩

theorem Holds.token {i : Nat} {t : Token} {rest : List TokenTree} (h : l.Holds i (.token t :: rest)) :
    l.slots[i]? = some t.slot ∧ l.Holds (i + 1) rest :=
  ⟨(Lays.token h.slots).1, (Holds.append (a := [.token t]) h).2⟩

/-- The brackets of a group, what stands between them and what stands behind. -/
theorem Holds.group {i : Nat} {opening closing : Token} {d : Delimiter} {inner rest : List TokenTree}
    (h : l.Holds i (.group opening closing d inner :: rest)) :
    l.slots[i]? = some (opening.slot.pairedWith (i + 1 + width inner)) ∧ l.Holds (i + 1) inner ∧
      l.slots[i + 1 + width inner]? = some (closing.slot.pairedWith i) ∧
      l.Holds (i + 1 + width inner + 1) rest := by
  have hrest := (Holds.append (a := [.group opening closing d inner]) h).2
  obtain ⟨⟨more, hslots⟩, hrun, hfits⟩ := h
  simp only [slotsAll, TokenTree.slots, List.cons_append, List.append_assoc] at hslots
  have hinner : l.slots.drop (i + 1) = slotsAll (i + 1) inner ++ closing.slot.pairedWith i :: _ :=
    drop_add [_] hslots rfl
  have hclosing := drop_add _ hinner (length_slotsAll (i + 1) inner)
  refine ⟨slotAt_of_drop hslots, ⟨⟨_, hinner⟩, ?_, hfits.1.2.2⟩, slotAt_of_drop hclosing, ?_⟩
  · have hsplit : TokenTree.allTokens (.group opening closing d inner :: rest) =
        [opening] ++ (TokenTree.allTokens inner ++ closing :: TokenTree.allTokens rest) := by
      simp [TokenTree.allTokens, TokenTree.tokens]
    rw [hsplit] at hrun
    exact (runIn_append (runIn_append hrun).2).1
  · have hindex : i + 1 + width inner + 1 = i + width [TokenTree.group opening closing d inner] := by
      simp
      omega
    rw [hindex]
    exact hrest

/-- Every token has its slot. -/
theorem Holds.exists_slot {i k : Nat} {ts : List TokenTree} {t : Token} (h : l.Holds i ts)
    (ht : (TokenTree.allTokens ts)[k]? = some t) : ∃ s, l.slots[i + k]? = some s ∧ s.Shows t := by
  obtain ⟨⟨rest, hslots⟩, _, _⟩ := h
  obtain ⟨s, hs, hshows⟩ := exists_getElem?_of_forall₂ (shows_slotsAll i ts) ht
  refine ⟨s, ?_, hshows⟩
  have hlt : k < (slotsAll i ts).length := (List.getElem?_eq_some_iff.mp hs).1
  rw [← List.getElem?_drop, hslots, List.getElem?_append_left hlt, hs]

/-! ## Single tokens -/

theorem slotAt_eq {i : Nat} {s : Slot} (h : l.slots[i]? = some s) : l.slotAt i = .ok s := by
  rw [slotAt, elementAt, h]

theorem partnerOf_eq {i : Nat} {s : Slot} (h : l.slots[i]? = some s) :
    l.partnerOf i = .ok (s.partner.getD i) := by
  rw [partnerOf, slotAt_eq h]
  rfl

theorem textOf_eq {s : Slot} {t : Token} (hs : s.Shows t) (ht : RunIn l.source [t]) :
    l.textOf s = .ok t.text := by
  have hslice : slice l.source t.start.offset t.stop = _ := ht.slice_eq rfl
  rw [textOf, hs.2.1, hs.2.2, hslice]
  simp [Checked.ok_bind, sourceText, pure, Except.pure]

theorem textAt_eq {i : Nat} {s : Slot} {t : Token} (h : l.slots[i]? = some s) (hs : s.Shows t)
    (ht : RunIn l.source [t]) : l.textAt i = .ok t.text := by
  rw [textAt, slotAt_eq h]
  exact textOf_eq hs ht

theorem Holds.textAt {i : Nat} {t : Token} {rest : List TokenTree} (h : l.Holds i (.token t :: rest)) :
    l.textAt i = .ok t.text :=
  textAt_eq h.token.1 t.slot_shows (runIn_append (a := [t]) h.run).1

/-- Neither the word `func` nor a receiver stands before an index. -/
def Clear (l : Listing) (i : Nat) : Prop :=
  l.followsFunc i = .ok false ∧ l.declaresFunction i = .ok false

theorem clear_of_slot {i : Nat} {s : Slot} (h : l.slots[i]? = some s) (hname : s.kind ≠ .name)
    (hclosing : s.kind ≠ .closing .paren) : l.Clear (i + 1) := by
  constructor
  · rw [followsFunc, slotAt_eq h, Checked.ok_bind, if_neg hname]
    rfl
  · rw [declaresFunction, slotAt_eq h, Checked.ok_bind]
    split
    · exact absurd (by assumption) hname
    · exact absurd (by assumption) hclosing
    · rfl

/-! ## Pieces -/

/-- A stretch belongs to some trees, as one argument of a call. -/
structure IsPiece (l : Listing) (a : Stretch) (ts : List TokenTree) : Prop where
  holds : l.Holds a.start ts
  stop : a.stop = a.start + width ts
  bound : a.stop ≤ l.slots.length
  clear : l.Clear a.start

section

variable {stop fuel start i : Nat} {s : Slot} (hi : i < stop) (hs : l.slots[i]? = some s)

include hi hs

theorem splitFrom_plain (hbracket : s.kind.isBracket = false) (hcomma : s.kind ≠ .comma) :
    l.splitFrom stop (fuel + 1) start i = l.splitFrom stop fuel start (i + 1) := by
  rw [splitFrom, if_pos hi, slotAt_eq hs, Checked.ok_bind]
  cases hkind : s.kind with
  | opening d => simp [hkind, TokenKind.isBracket] at hbracket
  | comma => exact absurd hkind hcomma
  | _ => rfl

theorem splitFrom_comma (hcomma : s.kind = .comma) {args : List Stretch}
    (hrest : l.splitFrom stop fuel (i + 1) (i + 1) = .ok args) :
    l.splitFrom stop (fuel + 1) start i = .ok (⟨start, i⟩ :: args) := by
  rw [splitFrom, if_pos hi, slotAt_eq hs, Checked.ok_bind, hcomma]
  simp only [hrest]
  rfl

theorem splitFrom_opening {d : Delimiter} (hopening : s.kind = .opening d) {close : Nat}
    (hpartner : s.partner = some close) :
    l.splitFrom stop (fuel + 1) start i = l.splitFrom stop fuel start (close + 1) := by
  rw [splitFrom, if_pos hi, slotAt_eq hs, Checked.ok_bind, hopening]
  simp only [partnerOf_eq hs, hpartner]
  rfl

end

/-- Trees without a comma are gone through in as many steps as there are trees. -/
theorem splitFrom_walk {ts : List TokenTree} {stop fuel start i : Nat} (hno : ∀ t ∈ ts, t.isComma = false)
    (h : l.Lays i ts) (hfits : AllFit ts) (hstop : i + width ts ≤ stop) :
    l.splitFrom stop (ts.length + fuel) start i = l.splitFrom stop fuel start (i + width ts) := by
  induction ts generalizing i with
  | nil => rw [List.length_nil, Nat.zero_add, width_nil, Nat.add_zero]
  | cons t rest ih =>
    obtain ⟨ht, hrest⟩ := List.forall_mem_cons.mp hno
    rw [List.length_cons, Nat.add_right_comm]
    cases t with
    | token t =>
      obtain ⟨hslot, hbehind⟩ := h.token
      rw [width_token] at hstop ⊢
      have hcomma : t.kind ≠ .comma := by simpa [TokenTree.isComma] using ht
      rw [splitFrom_plain (by omega) hslot hfits.1 hcomma, ih hrest hbehind hfits.2 (by omega)]
      congr 1
      omega
    | group opening closing d inner =>
      -- a group is one step, from its opening bracket to behind its partner
      obtain ⟨hslot, hbehind⟩ := h.group
      rw [width_group] at hstop ⊢
      rw [splitFrom_opening (by omega) hslot hfits.1.1 rfl, ih hrest hbehind hfits.2 (by omega)]
      congr 1
      omega

/-- Splitting a stretch gives the pieces of its trees, laid out from its beginning on. -/
theorem splitFrom_eq {ts : List TokenTree} {stop fuel start : Nat} (h : l.Lays start ts) (hfits : AllFit ts)
    (hstop : stop = start + width ts) (hfuel : ts.length < fuel) :
    l.splitFrom stop fuel start start = .ok (layOut start ((splitArguments ts).map TokenTree.allTokens)) := by
  obtain ⟨more, rfl⟩ := Nat.exists_eq_add_of_lt hfuel
  induction ts using splitArguments_induct generalizing start more with
  | nil =>
    rw [width_nil, Nat.add_zero] at hstop
    rw [splitFrom, if_neg (by omega), if_neg (by omega)]
    rfl
  | single ts hne hno =>
    have hpos := width_pos hne
    rw [Nat.add_assoc, splitFrom_walk hno h hfits (by omega), splitFrom, if_neg (by omega), if_pos (by omega),
      splitArguments_single hne hno, hstop]
    rfl
  | comma ts comma rest hno hcomma ih =>
    obtain ⟨hbefore, hbehind⟩ := h.append
    obtain ⟨hfitsts, hfitsrest⟩ := allFit_append.mp hfits
    obtain ⟨hslot, hrest⟩ := hbehind.token
    rw [width_append, width_token] at hstop
    have hsteps : (ts ++ .token comma :: rest).length + more + 1 = ts.length + ((rest.length + more + 1) + 1) := by
      rw [List.length_append, List.length_cons]
      omega
    have hargs := ih hrest hfitsrest.2 (by omega) more (by omega)
    rw [hsteps, splitFrom_walk hno hbefore hfitsts (by omega),
      splitFrom_comma (by omega) hslot hcomma hargs, splitArguments_comma hno hcomma]
    rfl

/-- The stretches of the pieces belong to them. -/
theorem isPiece_layOut {ts : List TokenTree} {start : Nat} (h : l.Holds start ts) (hclear : l.Clear start)
    (hbound : start + width ts ≤ l.slots.length) :
    List.Forall₂ l.IsPiece (layOut start ((splitArguments ts).map TokenTree.allTokens)) (splitArguments ts) := by
  induction ts using splitArguments_induct generalizing start with
  | nil => exact .nil
  | single ts hne hno =>
    rw [splitArguments_single hne hno]
    exact .cons ⟨h, rfl, hbound, hclear⟩ .nil
  | comma ts comma rest hno hcomma ih =>
    obtain ⟨hbefore, hbehind⟩ := h.append
    obtain ⟨hslot, hrest⟩ := hbehind.token
    rw [width_append, width_token] at hbound
    rw [splitArguments_comma hno hcomma]
    refine .cons ⟨hbefore, rfl, show start + width ts ≤ _ by omega, hclear⟩ (ih hrest ?_ ?_)
    · exact clear_of_slot hslot (by simp [hcomma]) (by simp [hcomma])
    · show start + width ts + 1 + width rest ≤ _
      omega

/-- The arguments in a stretch are the pieces of its trees. -/
theorem split_eq {a : Stretch} {ts : List TokenTree} (h : l.IsPiece a ts) {fuel : Nat}
    (hfuel : width ts < fuel) :
    ∃ args, l.split fuel a = .ok args ∧ List.Forall₂ l.IsPiece args (splitArguments ts) := by
  have hlength := length_le_width ts
  have hbound := h.stop ▸ h.bound
  exact ⟨_, splitFrom_eq h.holds.slots h.holds.fits h.stop (by omega), isPiece_layOut h.holds h.clear hbound⟩

/-! ## Values -/

theorem literal_eq {t : Token} (ht : RunIn l.source [t]) (negative : Bool) :
    l.literal t.slot negative = .ok (t.literal? negative) := by
  have htext := textOf_eq t.slot_shows ht
  rw [literal, htext, Checked.ok_bind]
  have hslot : t.slot.kind = t.kind := rfl
  rw [hslot, Token.literal?]
  cases hkind : t.kind with
  | integer =>
    have hsign := (ht.genuine (List.mem_singleton.mpr rfl)).no_sign hkind
    simp only [parseInteger_eq hsign, Checked.ok_bind, inRange?]
    cases hfilter : (integerValue? t.text.toList).filter (· ≤ greatestInteger) with
    | none => rfl
    | some n =>
      have hn : n ≤ greatestInteger := by simpa using (Option.filter_eq_some_iff.mp hfilter).2
      cases negative with
      | true =>
        simp only [Option.map_some, negate_ofInt hn]
        rfl
      | false => rfl
  | float => rfl
  | string s => rfl
  | rune c => rfl
  | name => rfl
  | _ => rfl

theorem joined_string {s : Slot} {text : String} (h : s.kind = .string text) (rest : List Slot) :
    joined false (s :: rest) = (joined true rest).map (text ++ ·) := by
  simp [joined, h]

theorem joined_other {s : Slot} (h : ∀ text, s.kind ≠ .string text) (rest : List Slot) :
    joined false (s :: rest) = none := by
  rw [joined]
  split
  · exact absurd (by assumption) (h _)
  · rfl
  · rfl

theorem joined_plus {s : Slot} (h : s.kind = .symbol '+') (rest : List Slot) :
    joined true (s :: rest) = joined false rest := by
  simp [joined, h]

theorem joined_no_plus {s : Slot} (h : s.kind ≠ .symbol '+') (rest : List Slot) :
    joined true (s :: rest) = none := by
  rw [joined]
  split
  · rfl
  · exact absurd (by assumption) h
  · rfl

theorem joined_group {i : Nat} {opening closing : Token} {d : Delimiter} {inner rest : List TokenTree}
    (hfits : AllFit (.group opening closing d inner :: rest)) :
    joined false (slotsAll i (.group opening closing d inner :: rest)) = none := by
  have hbracket : opening.kind = .opening d := hfits.1.1
  rw [slotsAll, TokenTree.slots, List.cons_append, joined_other (by simp [hbracket])]

/-- Strings and plus signs are joined in the table as they are in the trees. -/
theorem joined_eq (i : Nat) {ts : List TokenTree} (hfits : AllFit ts) :
    joined false (slotsAll i ts) = concatenation? ts := by
  fun_induction concatenation? ts generalizing i with
  | case1 t s hkind =>
    rw [slotsAll, TokenTree.slots, List.singleton_append, joined_string hkind]
    simp [slotsAll, joined]
  | case2 t hkind =>
    rw [slotsAll, TokenTree.slots, List.singleton_append, joined_other hkind]
  | case3 t plus rest s hkind hplus ih =>
    have hsymbol : plus.kind = .symbol '+' := by simpa [Token.isSymbol] using hplus
    rw [slotsAll, TokenTree.slots, List.singleton_append, joined_string hkind, slotsAll, TokenTree.slots,
      List.singleton_append, joined_plus hsymbol, ih _ hfits.2.2]
  | case4 t plus rest s hkind hplus =>
    have hsymbol : plus.kind ≠ .symbol '+' := by simpa [Token.isSymbol] using hplus
    rw [slotsAll, TokenTree.slots, List.singleton_append, joined_string hkind, slotsAll, TokenTree.slots,
      List.singleton_append, joined_no_plus hsymbol]
    rfl
  | case5 t plus rest hkind =>
    rw [slotsAll, TokenTree.slots, List.singleton_append, joined_other hkind]
  | case6 ts hsingle hpair =>
    -- what is left begins with a group, or with a token and a group: a bracket is no string and no sign
    rcases ts with _ | ⟨t, _ | ⟨u, rest⟩⟩
    · rfl
    · cases t with
      | token t => exact absurd rfl (hsingle t)
      | group opening closing d inner => exact joined_group hfits
    · cases t with
      | group opening closing d inner => exact joined_group hfits
      | token t =>
        cases u with
        | token plus => exact absurd rfl (hpair t plus rest)
        | group opening closing d inner =>
          have hbracket : opening.kind = .opening d := hfits.2.1.1
          rw [slotsAll, TokenTree.slots, List.singleton_append]
          by_cases hstring : ∃ text, t.kind = .string text
          · obtain ⟨text, htext⟩ := hstring
            rw [joined_string htext, slotsAll, TokenTree.slots, List.cons_append,
              joined_no_plus (by simp [hbracket])]
            rfl
          · rw [joined_other fun text htext => hstring ⟨text, htext⟩]

theorem elementsIn_eq {a : Stretch} {ts : List TokenTree} (h : l.IsPiece a ts) :
    elementsIn l.slots a.start a.stop = .ok (slotsAll a.start ts) := by
  obtain ⟨⟨⟨rest, hslots⟩, _, _⟩, hstop, hbound, _⟩ := h
  rw [elementsIn, if_pos ⟨by omega, hbound⟩, hslots, hstop, Nat.add_sub_cancel_left]
  exact congrArg Except.ok (List.take_left' (length_slotsAll a.start ts))

/-- The source text of a stretch is that of its tokens. -/
theorem raw_eq {a : Stretch} {ts : List TokenTree} (h : l.IsPiece a ts) (hne : ts ≠ []) :
    l.raw a = .ok (.expr (sourceText (TokenTree.allTokens ts))) := by
  have hpos := width_pos hne
  have hstop := h.stop
  have hrun := h.holds.run
  cases htokens : TokenTree.allTokens ts with
  | nil => simp [width, htokens] at hpos
  | cons t rest =>
    obtain ⟨first, hfirst, hfirstShows⟩ := h.holds.exists_slot (k := 0) (by rw [htokens]; rfl)
    obtain ⟨u, hu⟩ : ∃ u, (t :: rest).getLast? = some u := ⟨_, List.getLast?_eq_some_getLast (by simp)⟩
    have hlastIndex : (TokenTree.allTokens ts)[width ts - 1]? = some u := by
      rw [width, ← List.getLast?_eq_getElem?, htokens, hu]
    obtain ⟨last, hlast, hlastShows⟩ := h.holds.exists_slot hlastIndex
    have hdifference : difference a.stop 1 = .ok (a.start + (width ts - 1)) := by
      rw [difference, if_pos (by omega)]
      exact congrArg Except.ok (by omega)
    rw [htokens] at hrun
    rw [Nat.add_zero] at hfirst
    have hslice := hrun.slice_eq hu
    rw [raw, slotAt_eq hfirst, Checked.ok_bind, hdifference, Checked.ok_bind, slotAt_eq hlast,
      Checked.ok_bind, hfirstShows.2.1, hlastShows.2.2, hslice, Checked.ok_bind, String.ofList_toList]
    rfl

theorem orRaw_eq {a : Stretch} {ts : List TokenTree} (h : l.IsPiece a ts) (hne : ts ≠ []) (v : Option Value) :
    l.orRaw a v = .ok (v.getD (.expr (sourceText (TokenTree.allTokens ts)))) := by
  cases v with
  | some v => rfl
  | none => exact raw_eq h hne

/-- More than one token without a sign in front can only be joined strings. -/
theorem value_of_slots {a : Stretch} {slots : List Slot}
    (hslots : elementsIn l.slots a.start a.stop = .ok slots) (hlength : 2 ≤ slots.length)
    (hsign : ∀ sign number, slots = [sign, number] →
      ¬ (sign.kind = .symbol '-' ∨ sign.kind = .symbol '+')) :
    l.value a = l.orRaw a ((joined false slots).map .str) := by
  rw [value, hslots, Checked.ok_bind]
  match slots, hlength, hsign with
  | [sign, number], _, hsign => simp only [if_neg (hsign sign number rfl)]
  | s :: t :: u :: rest, _, _ => rfl

/-- Two tokens are never joined strings. -/
theorem concatenation?_pair (t u : Token) : concatenation? [.token t, .token u] = none := by
  rw [concatenation?]
  split
  · split <;> rfl
  · rfl

/-- Three tokens are no sign with a number behind it. -/
theorem slotsAll_ne_pair {i : Nat} {ts : List TokenTree} (h : 3 ≤ width ts) (s t : Slot) :
    slotsAll i ts ≠ [s, t] := by
  intro heq
  have hlength := congrArg List.length heq
  rw [length_slotsAll] at hlength
  simp only [width, hlength, List.length_cons, List.length_nil] at h
  omega

/-- Trees that can only be joined strings have this value in the table, too. -/
theorem value_of_joined {a : Stretch} {ts : List TokenTree} (h : l.IsPiece a ts) (hwidth : 2 ≤ width ts)
    (hsign : ∀ sign number, slotsAll a.start ts = [sign, number] →
      ¬ (sign.kind = .symbol '-' ∨ sign.kind = .symbol '+'))
    (hliteral : literal? ts = (concatenation? ts).map .str) : l.value a = .ok (readValue ts) := by
  have hne : ts ≠ [] := by
    rintro rfl
    simp at hwidth
  have hlength : 2 ≤ (slotsAll a.start ts).length := by
    rw [length_slotsAll]
    exact hwidth
  rw [value_of_slots (elementsIn_eq h) hlength hsign, joined_eq _ h.holds.fits, orRaw_eq h hne, readValue,
    hliteral]

/-- The value of a stretch is that of its trees. -/
theorem value_eq {a : Stretch} {ts : List TokenTree} (h : l.IsPiece a ts) :
    l.value a = .ok (readValue ts) := by
  match ts, h with
  | [], h =>
    rw [value, elementsIn_eq h]
    rfl
  | [.token t], h =>
    rw [value, elementsIn_eq h, Checked.ok_bind]
    simp only [slotsAll, TokenTree.slots, List.append_nil]
    rw [literal_eq h.holds.run, Checked.ok_bind, orRaw_eq h (by simp)]
    rfl
  | [.token sign, .token t], h =>
    have ht : RunIn l.source [t] := (runIn_append (a := [sign]) h.holds.run).2
    by_cases hsign : sign.kind = .symbol '-' ∨ sign.kind = .symbol '+'
    · have hsymbol : (sign.isSymbol '-' || sign.isSymbol '+') = true := by
        simpa [Token.isSymbol] using hsign
      rw [value, elementsIn_eq h, Checked.ok_bind, readValue, literal?, if_pos hsymbol]
      have hslot : sign.slot.kind = .symbol '-' ∨ sign.slot.kind = .symbol '+' := hsign
      simp only [slotsAll, TokenTree.slots, List.singleton_append]
      rw [if_pos hslot, literal_eq ht, Checked.ok_bind, orRaw_eq h (by simp)]
      rfl
    · have hsymbol : ¬ (sign.isSymbol '-' || sign.isSymbol '+') = true := by
        simpa [Token.isSymbol] using hsign
      refine value_of_joined h (by simp) ?_ ?_
      · intro first second heq
        simp only [slotsAll, TokenTree.slots, List.singleton_append, List.cons.injEq] at heq
        rw [← heq.1]
        exact hsign
      · rw [literal?, if_neg hsymbol, concatenation?_pair]
        rfl
  | .group opening closing d inner :: rest, h =>
    have hbracket : opening.kind = .opening d := h.holds.fits.1.1
    refine value_of_joined h (by rw [width_group]; omega) ?_ rfl
    intro sign number heq
    rw [slotsAll, TokenTree.slots, List.cons_append, List.cons.injEq] at heq
    rw [← heq.1]
    simp [hbracket]
  | .token t :: .group opening closing d inner :: rest, h =>
    have hwidth : 3 ≤ width (.token t :: .group opening closing d inner :: rest) := by
      rw [width_token, width_group]
      omega
    exact value_of_joined h (by omega) (fun s u heq => absurd heq (slotsAll_ne_pair hwidth s u)) rfl
  | .token t :: u :: v :: rest, h =>
    have hu := width_pos (show [u] ≠ [] by simp)
    have hv := width_pos (show v :: rest ≠ [] by simp)
    have hwidth : width (.token t :: u :: v :: rest) = width [u] + width (v :: rest) + 1 := by
      rw [width_token, ← width_append, List.singleton_append]
    exact value_of_joined h (by omega) (fun s w heq => absurd heq (slotsAll_ne_pair (by omega) s w))
      (by cases u <;> rfl)

end Listing

end SpecForest.Source
