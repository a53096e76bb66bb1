import Axes.Lib.Json

/-!
# The grammar of JSON texts

Which texts are of a value, with white space, escapes and surrogate pairs, and without a word
on how they are read: `DocumentText j text`. A reader takes every one of them
(`parse_document`). What is printed is one of them, so it is read back (`parse_print`).
-/

namespace Axes.Lib.Json

/-- White space. -/
def Blank (ws : List Char) : Prop := ∀ c ∈ ws, c = ' ' ∨ c = '\n' ∨ c = '\t' ∨ c = '\r'

/-! ## Strings -/

/-- A hexadecimal digit, in lower or in upper case. -/
def HexDigit (c : Char) (n : Nat) : Prop := n < 16 ∧ (c = n.digitChar ∨ c = n.digitChar.toUpper)

/-- The letters after a backslash, with the characters they stand for. -/
def escapes : List (Char × Char) :=
  [('"', '"'), ('\\', '\\'), ('/', '/'), ('b', Char.ofNat 8), ('f', Char.ofNat 12), ('n', '\n'),
    ('r', '\r'), ('t', '\t')]

inductive CharText : StringItem → List Char → Prop
  | plain {c : Char} : c ≠ '"' → c ≠ '\\' → 32 ≤ c.toNat → CharText (.char c) [c]
  | escaped {e c : Char} : (e, c) ∈ escapes → CharText (.char c) ['\\', e]
  | unit {a b c d : Char} {w x y z : Nat} : HexDigit a w → HexDigit b x → HexDigit c y →
      HexDigit d z →
      CharText (.unit (0x1000 * w + 0x100 * x + 0x10 * y + z)) ['\\', 'u', a, b, c, d]

inductive CharsText : List StringItem → List Char → Prop
  | done : CharsText [] []
  | char {item items t u} : CharText item t → CharsText items u → CharsText (item :: items) (t ++ u)

/-- The text of items: a `\u` escape is of a code point, or two of them are of one beyond
`U+FFFF`. -/
inductive StandFor : List StringItem → List Char → Prop
  | done : StandFor [] []
  | char {c items cs} : StandFor items cs → StandFor (.char c :: items) (c :: cs)
  | unit {u items cs} : u < 0xD800 ∨ 0xDFFF < u → StandFor items cs →
      StandFor (.unit u :: items) (Char.ofNat u :: cs)
  | pair {u v items cs} : 0xD800 ≤ u → u ≤ 0xDBFF → 0xDC00 ≤ v → v ≤ 0xDFFF → StandFor items cs →
      StandFor (.unit u :: .unit v :: items)
        (Char.ofNat (0x10000 + (u - 0xD800) * 0x400 + (v - 0xDC00)) :: cs)

inductive StringText : Option String → List Char → Prop
  | text {items t} {s : String} : CharsText items t → StandFor items s.toList →
      StringText (some s) ('"' :: (t ++ ['"']))
  /-- With surrogates that are not paired. -/
  | unpaired {items t} : CharsText items t → (∀ cs, ¬StandFor items cs) →
      StringText none ('"' :: (t ++ ['"']))

/-! ## Values -/

mutual

inductive ValueText : Json → List Char → Prop
  | null : ValueText .null ['n', 'u', 'l', 'l']
  | yes : ValueText (.bool true) ['t', 'r', 'u', 'e']
  | no : ValueText (.bool false) ['f', 'a', 'l', 's', 'e']
  | num (n : Number) : ValueText (.num n) (printNumber n)
  | str {s t} : StringText s t → ValueText (.str s) t
  | noItems {w} : Blank w → ValueText (.arr []) ('[' :: (w ++ [']']))
  | arr {js t} : ItemsText js t → ValueText (.arr js) ('[' :: (t ++ [']']))
  | noMembers {w} : Blank w → ValueText (.obj []) ('{' :: (w ++ ['}']))
  | obj {ms t} : MembersText ms t → ValueText (.obj ms) ('{' :: (t ++ ['}']))

/-- A value with white space around it. -/
inductive DocumentText : Json → List Char → Prop
  | padded {w j t w'} : Blank w → ValueText j t → Blank w' → DocumentText j (w ++ (t ++ w'))

inductive ItemsText : List Json → List Char → Prop
  | last {j t} : DocumentText j t → ItemsText [j] t
  | more {j js t u} : DocumentText j t → ItemsText js u → ItemsText (j :: js) (t ++ ',' :: u)

inductive MembersText : List (Option String × Json) → List Char → Prop
  | last {w key k w' j t} : Blank w → StringText key k → Blank w' → DocumentText j t →
      MembersText [(key, j)] (w ++ (k ++ (w' ++ ':' :: t)))
  | more {w key k w' j t ms u} : Blank w → StringText key k → Blank w' → DocumentText j t →
      MembersText ms u → MembersText ((key, j) :: ms) (w ++ (k ++ (w' ++ ':' :: (t ++ ',' :: u))))

end

/-! ## Reading strings -/

theorem hexValue_hexDigit : ∀ {n : Nat}, n < 16 → hexValue (hexDigit n) = some n := by
  decide

theorem hexValue_of_hexDigit {c : Char} {n : Nat} (h : HexDigit c n) : hexValue c = some n := by
  obtain ⟨hn, rfl | rfl⟩ := h
  · exact hexValue_hexDigit hn
  · exact (show ∀ n < 16, hexValue n.digitChar.toUpper = some n by decide) n hn

theorem stringItems_plain {c : Char} (hquote : c ≠ '"') (hslash : c ≠ '\\') (hprints : 32 ≤ c.toNat)
    (rest : List Char) :
    stringItems (c :: rest) = (stringItems rest).map fun r => (.char c :: r.1, r.2) := by
  conv_lhs => unfold stringItems
  split
  · next heq => cases heq
  · next heq => exact absurd (List.cons.inj heq).1 hquote
  · next heq => exact absurd (List.cons.inj heq).1 hslash
  · next heq => exact absurd (List.cons.inj heq).1 hslash
  · next heq =>
      cases heq
      rw [if_neg (by omega)]

theorem stringItems_char {item : StringItem} {t : List Char} (h : CharText item t)
    (rest : List Char) :
    stringItems (t ++ rest) = (stringItems rest).map fun r => (item :: r.1, r.2) := by
  cases h with
  | plain hquote hslash hprints => exact stringItems_plain hquote hslash hprints rest
  | escaped hescape =>
      simp only [escapes, List.mem_cons, Prod.mk.injEq, List.not_mem_nil, or_false] at hescape
      rcases hescape with ⟨rfl, rfl⟩ | ⟨rfl, rfl⟩ | ⟨rfl, rfl⟩ | ⟨rfl, rfl⟩ | ⟨rfl, rfl⟩ |
        ⟨rfl, rfl⟩ | ⟨rfl, rfl⟩ | ⟨rfl, rfl⟩ <;> rfl
  | @unit a b c d w x y z ha hb hc hd =>
      have hunit : hex4 a b c d = some (0x1000 * w + 0x100 * x + 0x10 * y + z) := by
        simp only [hex4, hexValue_of_hexDigit ha, hexValue_of_hexDigit hb,
          hexValue_of_hexDigit hc, hexValue_of_hexDigit hd, Option.some.injEq]
        omega
      simp only [List.cons_append, List.nil_append, stringItems, hunit]

theorem stringItems_chars {items : List StringItem} {t : List Char} (h : CharsText items t)
    (rest : List Char) : stringItems (t ++ '"' :: rest) = some (items, rest) := by
  induction h with
  | done => rfl
  | char hchar _ ih =>
      rw [List.append_assoc, stringItems_char hchar, ih]
      rfl

/-- Items are decoded to the text that they stand for, and to no other. -/
theorem decodeItems_eq_some {items : List StringItem} {cs : List Char} :
    decodeItems items = some cs ↔ StandFor items cs := by
  constructor
  · fun_induction decodeItems items generalizing cs with
    | case1 =>
        intro h
        cases h
        exact .done
    | case2 c rest ih =>
        intro h
        obtain ⟨ds, hrest, rfl⟩ := Option.map_eq_some_iff.mp h
        exact .char (ih hrest)
    | case3 u hhigh v rest hlow ih =>
        intro h
        obtain ⟨ds, hrest, rfl⟩ := Option.map_eq_some_iff.mp h
        simp only [isHigh, isLow, Bool.and_eq_true, decide_eq_true_eq] at hhigh hlow
        exact .pair hhigh.1 hhigh.2 hlow.1 hlow.2 (ih hrest)
    | case4 | case5 | case6 =>
        intro h
        cases h
    | case7 u rest hhigh hlow ih =>
        intro h
        obtain ⟨ds, hrest, rfl⟩ := Option.map_eq_some_iff.mp h
        simp only [isHigh, isLow, Bool.and_eq_true, decide_eq_true_eq] at hhigh hlow
        exact .unit (by omega) (ih hrest)
  · intro h
    induction h with
    | done => rfl
    | char _ ih => rw [decodeItems, ih, Option.map_some]
    | @unit u items cs hplain _ ih =>
        have hhigh : isHigh u = false := by
          simp only [isHigh, Bool.and_eq_false_iff, decide_eq_false_iff_not]
          omega
        have hlow : isLow u = false := by
          simp only [isLow, Bool.and_eq_false_iff, decide_eq_false_iff_not]
          omega
        rw [decodeItems.eq_def]
        simp only [hhigh, hlow, Bool.false_eq_true, if_false, ih, Option.map_some]
    | @pair u v items cs hu hu' hv hv' _ ih =>
        have hhigh : isHigh u = true := by
          simp only [isHigh, Bool.and_eq_true, decide_eq_true_eq]
          exact ⟨hu, hu'⟩
        have hlow : isLow v = true := by
          simp only [isLow, Bool.and_eq_true, decide_eq_true_eq]
          exact ⟨hv, hv'⟩
        rw [decodeItems.eq_def]
        simp only [hhigh, hlow, if_true, ih, Option.map_some]

theorem string_text {s : Option String} {t : List Char} (h : StringText s t) (rest : List Char) :
    ∃ body, t ++ rest = '"' :: body ∧ string body = some (s, rest) := by
  cases h with
  | @text items t s hchars hstands =>
      refine ⟨t ++ '"' :: rest, by simp, ?_⟩
      simp [string, stringItems_chars hchars, decodeItems_eq_some.mpr hstands]
  | @unpaired items t hchars hnone =>
      refine ⟨t ++ '"' :: rest, by simp, ?_⟩
      have hdecode : decodeItems items = none :=
        Option.eq_none_iff_forall_ne_some.mpr fun cs h => hnone cs (decodeItems_eq_some.mp h)
      simp [string, stringItems_chars hchars, hdecode]

/-! ## Reading values -/

theorem isSpace_iff {c : Char} : isSpace c = true ↔ c = ' ' ∨ c = '\n' ∨ c = '\t' ∨ c = '\r' := by
  simp [isSpace, or_assoc]

theorem skipSpace_of_not {c : Char} {cs : List Char} (h : isSpace c = false) :
    skipSpace (c :: cs) = c :: cs :=
  List.dropWhile_cons_of_neg (by simp [h])

theorem skipSpace_blank {w : List Char} (h : Blank w) (cs : List Char) :
    skipSpace (w ++ cs) = skipSpace cs :=
  List.dropWhile_append_of_pos fun c hc => isSpace_iff.mpr (h c hc)

theorem skipSpace_skipSpace (cs : List Char) : skipSpace (skipSpace cs) = skipSpace cs :=
  List.dropWhile_idempotent ..

theorem Blank.ends {w rest : List Char} (h : Blank w) (hrest : Ends rest) : Ends (w ++ rest) := by
  cases w with
  | nil => exact hrest
  | cons c w =>
      intro d hd
      obtain rfl : c = d := Option.some.inj hd
      rcases h c List.mem_cons_self with rfl | rfl | rfl | rfl <;> decide

/-- White space is left out in front of a value, of items and of members. -/
theorem value_skipSpace (fuel : Nat) (cs : List Char) :
    value fuel (skipSpace cs) = value fuel cs := by
  cases fuel with
  | zero => rfl
  | succ fuel => rw [value, value, skipSpace_skipSpace]

theorem items_skipSpace (fuel : Nat) (cs : List Char) :
    items fuel (skipSpace cs) = items fuel cs := by
  cases fuel with
  | zero => rfl
  | succ fuel => rw [items, items, value_skipSpace]

theorem members_skipSpace (fuel : Nat) (cs : List Char) :
    members fuel (skipSpace cs) = members fuel cs := by
  cases fuel with
  | zero => rfl
  | succ fuel => rw [members, members, skipSpace_skipSpace]

/-- A number starts with a digit or a sign. -/
theorem printNumber_head (n : Number) :
    ∃ c cs, printNumber n = c :: cs ∧ (c = '-' ∨ c.isDigit = true) := by
  unfold printNumber
  split
  · exact ⟨_, _, rfl, .inl rfl⟩
  · obtain ⟨c, cs, hhead, hc⟩ := printUnsigned_head n
    exact ⟨c, cs, hhead, .inr hc⟩

/-- A digit or a sign starts nothing but a number. -/
theorem number_start {c : Char} (h : c = '-' ∨ c.isDigit = true) :
    isSpace c = false ∧ c ∉ ['n', 't', 'f', '"', '[', '{', ']', '}'] := by
  rcases h with rfl | hdigit
  · decide
  · constructor
    · by_contra hspace
      rw [Bool.not_eq_false, isSpace_iff] at hspace
      rcases hspace with rfl | rfl | rfl | rfl <;> cases hdigit
    · intro hmem
      simp only [List.mem_cons, List.not_mem_nil, or_false] at hmem
      rcases hmem with rfl | rfl | rfl | rfl | rfl | rfl | rfl | rfl <;> cases hdigit

theorem value_number (n : Number) (fuel : Nat) {rest : List Char} (h : Ends rest) :
    value (fuel + 1) (printNumber n ++ rest) = some (.num n, rest) := by
  obtain ⟨c, cs, hhead, hc⟩ := printNumber_head n
  have hread := number_print n h
  rw [hhead, List.cons_append] at hread ⊢
  obtain ⟨hspace, hstart⟩ := number_start hc
  simp only [List.mem_cons, List.not_mem_nil, or_false, not_or] at hstart
  obtain ⟨hn, ht, hf, hquote, hbracket, hbrace, -, -⟩ := hstart
  unfold value
  rw [skipSpace_of_not hspace]
  split
  · next heq => exact absurd (List.cons.inj heq).1 hn
  · next heq => exact absurd (List.cons.inj heq).1 ht
  · next heq => exact absurd (List.cons.inj heq).1 hf
  · next heq => exact absurd (List.cons.inj heq).1 hquote
  · next heq => exact absurd (List.cons.inj heq).1 hbracket
  · next heq => exact absurd (List.cons.inj heq).1 hbrace
  · rw [hread]
    rfl

/-- A value starts with no space, and with no closing bracket. -/
theorem ValueText.head {j : Json} {t : List Char} (h : ValueText j t) :
    ∃ c cs, t = c :: cs ∧ isSpace c = false ∧ c ≠ ']' := by
  cases h with
  | null | yes | no | noItems | arr | noMembers | obj => exact ⟨_, _, rfl, rfl, by decide⟩
  | str h =>
      cases h with
      | text | unpaired => exact ⟨_, _, rfl, rfl, by decide⟩
  | num n =>
      obtain ⟨c, cs, hhead, hc⟩ := printNumber_head n
      obtain ⟨hspace, hstart⟩ := number_start hc
      exact ⟨c, cs, hhead, hspace, fun h => hstart (by simp [h])⟩

theorem DocumentText.head {j : Json} {t : List Char} (h : DocumentText j t) (rest : List Char) :
    ∃ c cs, skipSpace (t ++ rest) = c :: cs ∧ c ≠ ']' := by
  cases h with
  | padded hbefore hvalue _ =>
      obtain ⟨c, cs, rfl, hspace, hbracket⟩ := hvalue.head
      rw [List.append_assoc, skipSpace_blank hbefore]
      exact ⟨c, _, skipSpace_of_not hspace, hbracket⟩

theorem ItemsText.head {js : List Json} {t : List Char} (h : ItemsText js t) (rest : List Char) :
    ∃ c cs, skipSpace (t ++ rest) = c :: cs ∧ c ≠ ']' := by
  cases h with
  | last hdocument => exact hdocument.head rest
  | more hdocument _ =>
      rw [List.append_assoc]
      exact hdocument.head _

theorem MembersText.head {ms : List (Option String × Json)} {t : List Char} (h : MembersText ms t)
    (rest : List Char) : ∃ cs, skipSpace (t ++ rest) = '"' :: cs := by
  have hkey : ∀ {w k key} (cs : List Char), Blank w → StringText key k →
      ∃ cs', skipSpace (w ++ (k ++ cs)) = '"' :: cs' := by
    intro w k key cs hblank hkey
    rw [skipSpace_blank hblank]
    cases hkey with
    | text | unpaired => exact ⟨_, rfl⟩
  cases h with
  | last hblank hstring _ _ | more hblank hstring _ _ _ =>
      rw [List.append_assoc, List.append_assoc]
      exact hkey _ hblank hstring

theorem ends_closing {c : Char} (h : c ∈ [',', ']', '}']) (cs : List Char) : Ends (c :: cs) := by
  intro d hd
  obtain rfl : c = d := Option.some.inj hd
  simp only [List.mem_cons, List.not_mem_nil, or_false] at h
  rcases h with rfl | rfl | rfl <;> decide

section Steps

variable {fuel : Nat} {cs ds es gs rest : List Char} {j : Json} {js : List Json}
  {key : Option String} {ms : List (Option String × Json)}

theorem value_bracket (fuel : Nat) (cs : List Char) :
    value (fuel + 1) ('[' :: cs) = match skipSpace cs with
      | ']' :: rest => some (.arr [], rest)
      | rest => (items fuel rest).map fun r => (.arr r.1, r.2) := rfl

theorem value_brace (fuel : Nat) (cs : List Char) :
    value (fuel + 1) ('{' :: cs) = match skipSpace cs with
      | '}' :: rest => some (.obj [], rest)
      | rest => (members fuel rest).map fun r => (.obj r.1, r.2) := rfl

theorem value_noItems (h : skipSpace cs = ']' :: rest) :
    value (fuel + 1) ('[' :: cs) = some (.arr [], rest) := by
  rw [value_bracket, h]
  rfl

theorem value_arr {c : Char} (h : skipSpace cs = c :: ds) (hc : c ≠ ']')
    (hitems : items fuel cs = some (js, rest)) :
    value (fuel + 1) ('[' :: cs) = some (.arr js, rest) := by
  rw [← items_skipSpace, h] at hitems
  rw [value_bracket, h]
  split
  · next heq => exact absurd (List.cons.inj heq).1 hc
  · rw [hitems]
    rfl

theorem value_noMembers (h : skipSpace cs = '}' :: rest) :
    value (fuel + 1) ('{' :: cs) = some (.obj [], rest) := by
  rw [value_brace, h]
  rfl

theorem value_obj (h : skipSpace cs = '"' :: ds) (hmembers : members fuel cs = some (ms, rest)) :
    value (fuel + 1) ('{' :: cs) = some (.obj ms, rest) := by
  rw [← members_skipSpace, h] at hmembers
  rw [value_brace, h]
  show (members fuel ('"' :: ds)).map _ = _
  rw [hmembers]
  rfl

theorem items_last (hvalue : value fuel cs = some (j, ds)) (h : skipSpace ds = ']' :: rest) :
    items (fuel + 1) cs = some ([j], rest) := by
  rw [items, hvalue]
  simp only [h]

theorem items_more (hvalue : value fuel cs = some (j, ds)) (h : skipSpace ds = ',' :: es)
    (hitems : items fuel es = some (js, rest)) : items (fuel + 1) cs = some (j :: js, rest) := by
  rw [items, hvalue]
  simp only [h, hitems, Option.map_some]

theorem members_last {body : List Char} (hquote : skipSpace cs = '"' :: body)
    (hkey : string body = some (key, ds)) (hcolon : skipSpace ds = ':' :: es)
    (hvalue : value fuel es = some (j, gs)) (h : skipSpace gs = '}' :: rest) :
    members (fuel + 1) cs = some ([(key, j)], rest) := by
  rw [members, hquote]
  simp only [hkey, hcolon, hvalue, h]

theorem members_more {body hs : List Char} (hquote : skipSpace cs = '"' :: body)
    (hkey : string body = some (key, ds)) (hcolon : skipSpace ds = ':' :: es)
    (hvalue : value fuel es = some (j, gs)) (h : skipSpace gs = ',' :: hs)
    (hmembers : members fuel hs = some (ms, rest)) :
    members (fuel + 1) cs = some ((key, j) :: ms, rest) := by
  rw [members, hquote]
  simp only [hkey, hcolon, hvalue, h, hmembers, Option.map_some]

end Steps

mutual

/-- **A value is read from every text of it**, with fuel for the characters. -/
theorem value_text : ∀ {j : Json} {t : List Char}, ValueText j t → ∀ (fuel : Nat)
    (rest : List Char), t.length ≤ fuel → Ends rest → value fuel (t ++ rest) = some (j, rest)
  | _, _, h, 0, _, hfuel, _ => by
      obtain ⟨c, cs, rfl, -⟩ := h.head
      cases hfuel
  | _, _, .null, _ + 1, _, _, _ => rfl
  | _, _, .yes, _ + 1, _, _, _ => rfl
  | _, _, .no, _ + 1, _, _, _ => rfl
  | _, _, .num n, fuel + 1, _, _, hends => value_number n fuel hends
  | _, _, .str h, _ + 1, rest, _, _ => by
      obtain ⟨body, htext, hread⟩ := string_text h rest
      rw [htext]
      show (string body).map _ = _
      rw [hread]
      rfl
  | _, _, .noItems hblank, _ + 1, rest, _, _ => by
      rw [List.cons_append, List.append_assoc]
      exact value_noItems (skipSpace_blank hblank (']' :: rest))
  | _, _, .arr h, fuel + 1, rest, hfuel, _ => by
      rw [List.length_cons, List.length_append, List.length_singleton] at hfuel
      obtain ⟨c, cs, hhead, hbracket⟩ := h.head (']' :: rest)
      rw [List.cons_append, List.append_assoc]
      exact value_arr hhead hbracket (items_text h fuel rest (by omega))
  | _, _, .noMembers hblank, _ + 1, rest, _, _ => by
      rw [List.cons_append, List.append_assoc]
      exact value_noMembers (skipSpace_blank hblank ('}' :: rest))
  | _, _, .obj h, fuel + 1, rest, hfuel, _ => by
      rw [List.length_cons, List.length_append, List.length_singleton] at hfuel
      obtain ⟨cs, hhead⟩ := h.head ('}' :: rest)
      rw [List.cons_append, List.append_assoc]
      exact value_obj hhead (members_text h fuel rest (by omega))

/-- What is left after a document is the white space at its end. -/
theorem document_text : ∀ {j : Json} {t : List Char}, DocumentText j t → ∀ (fuel : Nat)
    (rest : List Char), t.length ≤ fuel → Ends rest →
      ∃ ds, value fuel (t ++ rest) = some (j, ds) ∧ skipSpace ds = skipSpace rest
  | _, _, .padded hbefore hvalue hafter, fuel, rest, hfuel, hends => by
      rw [List.length_append, List.length_append] at hfuel
      have hread := value_text hvalue fuel _ (by omega) (hafter.ends hends)
      refine ⟨_, ?_, skipSpace_blank hafter rest⟩
      rw [← hread, ← value_skipSpace, List.append_assoc, skipSpace_blank hbefore, value_skipSpace,
        List.append_assoc]

theorem items_text : ∀ {js : List Json} {t : List Char}, ItemsText js t → ∀ (fuel : Nat)
    (rest : List Char), t.length < fuel → items fuel (t ++ ']' :: rest) = some (js, rest)
  | _, _, _, 0, _, hfuel => by cases hfuel
  | _, _, .last h, fuel + 1, rest, hfuel => by
      obtain ⟨ds, hread, hrest⟩ := document_text h fuel (']' :: rest) (by omega)
        (ends_closing (by decide) rest)
      exact items_last hread hrest
  | _, _, .more h hmore, fuel + 1, rest, hfuel => by
      rw [List.length_append, List.length_cons] at hfuel
      rw [List.append_assoc]
      obtain ⟨ds, hread, hrest⟩ := document_text h fuel _ (by omega)
        (ends_closing (show ',' ∈ [',', ']', '}'] by decide) _)
      exact items_more hread hrest (items_text hmore fuel rest (by omega))

theorem members_text : ∀ {ms : List (Option String × Json)} {t : List Char}, MembersText ms t →
    ∀ (fuel : Nat) (rest : List Char), t.length < fuel →
      members fuel (t ++ '}' :: rest) = some (ms, rest)
  | _, _, _, 0, _, hfuel => by cases hfuel
  | _, _, @MembersText.last w key k w' j t hbefore hkey hafter h, fuel + 1, rest, hfuel => by
      simp only [List.length_append, List.length_cons] at hfuel
      obtain ⟨ds, hread, hrest⟩ := document_text h fuel ('}' :: rest) (by omega)
        (ends_closing (by decide) rest)
      obtain ⟨body, hquote, hstring⟩ := string_text hkey (w' ++ ':' :: (t ++ '}' :: rest))
      have hopen : skipSpace (w ++ (k ++ (w' ++ ':' :: (t ++ '}' :: rest)))) = '"' :: body := by
        rw [skipSpace_blank hbefore, hquote]
        rfl
      have hcolon : skipSpace (w' ++ ':' :: (t ++ '}' :: rest)) = ':' :: (t ++ '}' :: rest) :=
        skipSpace_blank hafter _
      simp only [List.append_assoc, List.cons_append]
      exact members_last hopen hstring hcolon hread hrest
  | _, _, @MembersText.more w key k w' j t ms u hbefore hkey hafter h hmore, fuel + 1, rest,
      hfuel => by
      simp only [List.length_append, List.length_cons] at hfuel
      have hmembers := members_text hmore fuel rest (by omega)
      obtain ⟨ds, hread, hrest⟩ := document_text h fuel (',' :: (u ++ '}' :: rest)) (by omega)
        (ends_closing (by decide) _)
      obtain ⟨body, hquote, hstring⟩ :=
        string_text hkey (w' ++ ':' :: (t ++ ',' :: (u ++ '}' :: rest)))
      have hopen : skipSpace (w ++ (k ++ (w' ++ ':' :: (t ++ ',' :: (u ++ '}' :: rest))))) =
          '"' :: body := by
        rw [skipSpace_blank hbefore, hquote]
        rfl
      have hcolon : skipSpace (w' ++ ':' :: (t ++ ',' :: (u ++ '}' :: rest))) =
          ':' :: (t ++ ',' :: (u ++ '}' :: rest)) := skipSpace_blank hafter _
      simp only [List.append_assoc, List.cons_append]
      exact members_more hopen hstring hcolon hread hrest hmembers

end

/-- **Every text of the grammar is read**, as the value that it is of. -/
theorem parse_document {j : Json} {t : List Char} (h : DocumentText j t) : parse t = some j := by
  obtain ⟨ds, hread, hrest⟩ := document_text h (t.length + 1) [] (Nat.le_succ _)
    fun _ hc => by cases hc
  rw [List.append_nil] at hread
  rw [parse, hread]
  exact if_pos hrest

/-! ## Printed values -/

/-- How a character of a printed string is read: as it is, or as a `\u` escape. -/
def itemOf (c : Char) : StringItem :=
  if c.toNat < 32 ∧ c.toNat ∉ [8, 9, 10, 12, 13] then .unit c.toNat else .char c

theorem charText_control {n : Nat} (h : n < 32) :
    CharText (.unit n) ['\\', 'u', '0', '0', hexDigit (n / 16), hexDigit (n % 16)] := by
  have hzero : HexDigit '0' 0 := ⟨by decide, .inl rfl⟩
  have hvalue : n = 0x1000 * 0 + 0x100 * 0 + 0x10 * (n / 16) + n % 16 := by omega
  have htext := CharText.unit hzero hzero ⟨show n / 16 < 16 by omega, .inl rfl⟩
    ⟨show n % 16 < 16 by omega, .inl rfl⟩
  rw [← hvalue] at htext
  exact htext

theorem charText_escape (c : Char) : CharText (itemOf c) (escape c) := by
  unfold escape
  split
  · next h => subst h; exact .escaped (by decide)
  split
  · next h => subst h; exact .escaped (by decide)
  split
  · next h => obtain rfl : c = Char.ofNat 8 := Char.toNat_inj.mp h; exact .escaped (by decide)
  split
  · next h => obtain rfl : c = Char.ofNat 9 := Char.toNat_inj.mp h; exact .escaped (by decide)
  split
  · next h => obtain rfl : c = Char.ofNat 10 := Char.toNat_inj.mp h; exact .escaped (by decide)
  split
  · next h => obtain rfl : c = Char.ofNat 12 := Char.toNat_inj.mp h; exact .escaped (by decide)
  split
  · next h => obtain rfl : c = Char.ofNat 13 := Char.toNat_inj.mp h; exact .escaped (by decide)
  split
  · next h8 h9 h10 h12 h13 h =>
      have hitem : itemOf c = .unit c.toNat := if_pos ⟨h, by simp [h8, h9, h10, h12, h13]⟩
      rw [hitem]
      exact charText_control h
  · next hquote hslash _ _ _ _ _ h =>
      have hitem : itemOf c = .char c := if_neg fun hcontrol => h hcontrol.1
      rw [hitem]
      exact .plain hquote hslash (by omega)

theorem charsText_print : ∀ cs : List Char, CharsText (cs.map itemOf) (cs.flatMap escape)
  | [] => .done
  | c :: cs => .char (charText_escape c) (charsText_print cs)

theorem standFor_print (cs : List Char) : StandFor (cs.map itemOf) cs := by
  induction cs with
  | nil => exact .done
  | cons c cs ih =>
      rw [List.map_cons]
      by_cases h : c.toNat < 32 ∧ c.toNat ∉ [8, 9, 10, 12, 13]
      · have hitem : itemOf c = .unit c.toNat := if_pos h
        have hstands := StandFor.unit (u := c.toNat) (.inl (by omega)) ih
        rw [Char.ofNat_toNat] at hstands
        rw [hitem]
        exact hstands
      · have hitem : itemOf c = .char c := if_neg h
        rw [hitem]
        exact .char ih

/-- An unpaired surrogate is of no text. -/
theorem not_standFor_surrogate (cs : List Char) : ¬StandFor [.unit 0xD800] cs := by
  intro h
  cases decodeItems_eq_some.mpr h

theorem stringText_print : ∀ s : Option String, StringText s (printString s)
  | some s => .text (charsText_print s.toList) (standFor_print s.toList)
  | none => by
      have hd : HexDigit 'd' 13 := ⟨by decide, .inl rfl⟩
      have h8 : HexDigit '8' 8 := ⟨by decide, .inl rfl⟩
      have h0 : HexDigit '0' 0 := ⟨by decide, .inl rfl⟩
      exact .unpaired (.char (.unit hd h8 h0 h0) .done) not_standFor_surrogate

theorem Blank.nil : Blank [] := by
  intro c hc
  cases hc

/-- A value without white space around it. -/
theorem ValueText.document {j : Json} {t : List Char} (h : ValueText j t) : DocumentText j t := by
  have hdocument := DocumentText.padded .nil h .nil
  rw [List.append_nil] at hdocument
  exact hdocument

mutual

/-- What is printed is a text of the value. -/
theorem valueText_print : ∀ j : Json, ValueText j (print j)
  | .null => .null
  | .bool true => .yes
  | .bool false => .no
  | .num n => .num n
  | .str s => .str (stringText_print s)
  | .arr [] => .noItems .nil
  | .arr (j :: js) => .arr (itemsText_print (j :: js) (List.cons_ne_nil j js))
  | .obj [] => .noMembers .nil
  | .obj (m :: ms) => .obj (membersText_print (m :: ms) (List.cons_ne_nil m ms))

theorem itemsText_print : ∀ js : List Json, js ≠ [] → ItemsText js (printItems js)
  | [], h => absurd rfl h
  | [j], _ => .last (valueText_print j).document
  | j :: k :: js, _ =>
      .more (valueText_print j).document (itemsText_print (k :: js) (List.cons_ne_nil k js))

theorem membersText_print : ∀ ms : List (Option String × Json), ms ≠ [] →
    MembersText ms (printMembers ms)
  | [], h => absurd rfl h
  | [(key, j)], _ => .last .nil (stringText_print key) .nil (valueText_print j).document
  | (key, j) :: m :: ms, _ => .more .nil (stringText_print key) .nil (valueText_print j).document
      (membersText_print (m :: ms) (List.cons_ne_nil m ms))

end

/-- **What is printed is read back.** -/
theorem parse_print (j : Json) : parse (print j) = some j :=
  parse_document (valueText_print j).document

end Axes.Lib.Json
