import VolBacktest.Proofs.Json.Soundness
import VolBacktest.Proofs.Json.Spacing

/-!
# Texts side by side

A text of which every token is whole is cut into the same tokens whatever is put behind it, as long as that
does not go on with a numeral. A text that holds one value can thus be put wherever a value is due, and
what is put there is the tree of the value: `Holds.run`. How the text is laid out inside does not matter,
which is why this does not follow from what is known of written values.
-/

namespace VolBacktest.Json

open Text

/-! ### Tokens -/

namespace Numeral

variable {cs rest after : List Char}

theorem splitDigits_behind (cs : List Char) (ends : EndsDigits after) :
    splitDigits (cs ++ after) = ((splitDigits cs).1, (splitDigits cs).2 ++ after) := by
  induction cs with
  | nil =>
      have none : ∀ c ∈ ([] : List Char), c.isDigit := nofun
      exact splitDigits_append none ends
  | cons c cs ih =>
      simp only [splitDigits, Prod.mk.injEq] at ih
      cases digit : c.isDigit <;> simp [splitDigits, digit, ih]

theorem scanDigits_behind {digits : List Char} (scanned : scanDigits cs = .ok (digits, rest))
    (ends : EndsDigits after) : scanDigits (cs ++ after) = .ok (digits, rest ++ after) := by
  simp only [scanDigits, splitDigits_behind cs ends] at scanned ⊢
  split at scanned
  next => contradiction
  next found =>
    rw [if_neg found]
    obtain ⟨same, left⟩ := Prod.mk.inj (Except.ok.inj scanned)
    rw [same, left]

theorem scanWhole_behind {digits : List Char} (scanned : scanWhole cs = .ok (digits, rest))
    (ends : EndsDigits after) : scanWhole (cs ++ after) = .ok (digits, rest ++ after) := by
  rw [scanWhole] at scanned ⊢
  split at scanned
  next => contradiction
  next notZero =>
    have more := scanDigits_behind scanned ends
    rw [more]
    split
    next c tail left found =>
      obtain ⟨rfl, rfl⟩ := Prod.mk.inj (Except.ok.inj found)
      exact absurd scanned (notZero c tail rest)
    next => rfl

/-- What is made of a part and of the text after it is made of the part before more text. -/
theorem map_behind {α β : Type} {view : List Char → Except Bool (α × List Char)}
    {f : α × List Char → β × List Char} {b : β}
    (keeps : ∀ a left, f (a, left ++ after) = ((f (a, left)).1, (f (a, left)).2 ++ after))
    (behind : ∀ a left, view cs = .ok (a, left) → view (cs ++ after) = .ok (a, left ++ after))
    (scanned : (view cs).map f = .ok (b, rest)) :
    (view (cs ++ after)).map f = .ok (b, rest ++ after) := by
  obtain ⟨⟨a, left⟩, found, same⟩ := map_eq_ok.mp scanned
  exact map_eq_ok.mpr ⟨_, behind a left found, by rw [keeps, same]⟩

theorem scanFraction_behind {fraction : Option (List Char)}
    (scanned : scanFraction cs = .ok (fraction, rest)) (ends : Ends after) :
    scanFraction (cs ++ after) = .ok (fraction, rest ++ after) := by
  cases cs with
  | nil =>
      cases scanned
      exact scanFraction_other fun c first => (ends c first).2.1
  | cons c cs =>
      by_cases point : c = '.'
      · subst point
        exact map_behind (fun _ _ => rfl) (fun _ _ found => scanDigits_behind found ends.endsDigits) scanned
      · have other (more : List Char) : scanFraction (c :: more) = .ok (none, c :: more) :=
          scanFraction_other (by rintro _ ⟨⟩; exact point)
        rw [other] at scanned
        cases scanned
        exact other _

theorem scanSignedExponent_behind {exponent : Int}
    (scanned : scanSignedExponent cs = .ok (exponent, rest)) (ends : EndsDigits after) :
    scanSignedExponent (cs ++ after) = .ok (exponent, rest ++ after) := by
  rw [scanSignedExponent.eq_def] at scanned
  split at scanned
  next tail =>
    exact map_behind (fun _ _ => rfl) (fun _ _ found => scanDigits_behind found ends) scanned
  next tail =>
    exact map_behind (fun _ _ => rfl) (fun _ _ found => scanDigits_behind found ends) scanned
  next noMinus noPlus =>
    obtain ⟨_, found, -⟩ := map_eq_ok.mp scanned
    obtain ⟨-, c, tail, rfl, -⟩ := scanDigits_ok found
    have other := scanSignedExponent.eq_3 (c :: tail ++ after)
      (fun _ same => noMinus tail (by rw [(List.cons.inj same).1]))
      (fun _ same => noPlus tail (by rw [(List.cons.inj same).1]))
    rw [other]
    exact map_behind (fun _ _ => rfl) (fun _ _ found => scanDigits_behind found ends) scanned

theorem scanExponent_behind {exponent : Option Int}
    (scanned : scanExponent cs = .ok (exponent, rest)) (ends : Ends after) :
    scanExponent (cs ++ after) = .ok (exponent, rest ++ after) := by
  rw [scanExponent.eq_def] at scanned
  split at scanned
  next tail =>
    exact map_behind (fun _ _ => rfl) (fun _ _ found => scanSignedExponent_behind found ends.endsDigits) scanned
  next tail =>
    exact map_behind (fun _ _ => rfl) (fun _ _ found => scanSignedExponent_behind found ends.endsDigits) scanned
  next noSmall noLarge =>
    cases scanned
    apply scanExponent_other
    cases cs with
    | nil => exact fun c first => (ends c first).2.2
    | cons c tail =>
        rintro _ ⟨⟩
        exact ⟨fun same => noSmall tail (by rw [same]), fun same => noLarge tail (by rw [same])⟩

theorem scanUnsigned_behind {negative : Bool} {n : Numeral}
    (scanned : scanUnsigned negative cs = .ok (n, rest)) (ends : Ends after) :
    scanUnsigned negative (cs ++ after) = .ok (n, rest ++ after) := by
  simp only [scanUnsigned, bind_eq_ok, Prod.exists] at scanned ⊢
  obtain ⟨digits, left, whole, fraction, more, point, exponent, last, power, found⟩ := scanned
  cases found
  exact ⟨digits, _, scanWhole_behind whole ends.endsDigits, fraction, _,
    scanFraction_behind point ends, exponent, _, scanExponent_behind power ends, rfl⟩

/-- A numeral is scanned alike whatever follows that does not go on with it. -/
theorem scan_behind {n : Numeral} (scanned : scan cs = .ok (n, rest)) (ends : Ends after) :
    scan (cs ++ after) = .ok (n, rest ++ after) := by
  obtain ⟨-, c, tail, rfl, -⟩ := scan_ok scanned
  by_cases sign : c = '-'
  · subst sign
    exact scanUnsigned_behind scanned ends
  · have other (more : List Char) : scan (c :: more) = scanUnsigned false (c :: more) :=
      scan.eq_2 _ fun _ same => sign (List.cons.inj same).1
    rw [other] at scanned
    rw [List.cons_append, other]
    exact scanUnsigned_behind scanned ends

end Numeral

/-- A literal that closes is scanned alike whatever follows it. -/
theorem Literal.scan_behind {cs : List Char} (closed : (scan cs).ending = .closed) (after : List Char) :
    scan (cs ++ after) = { scan cs with rest := (scan cs).rest ++ after } := by
  fun_induction scan cs with
  | case1 => contradiction
  | case2 rest => rfl
  | case3 => contradiction
  | case4 a b c d rest code unit ih =>
      simp only [List.cons_append, scan, unit]
      rw [ih closed]
      rfl
  | case5 => contradiction
  | case6 few _ =>
      simp only [unitEnding] at closed
      split at closed <;> contradiction
  | case7 c rest _ notUnit escaped short ih =>
      rw [List.cons_append, List.cons_append,
        scan.eq_6 c (rest ++ after) (fun _ _ _ _ _ unit _ => notUnit unit) notUnit, short]
      simp only [ih closed]
      rfl
  | case8 => contradiction
  | case9 => contradiction
  | case10 c rest notQuote notLast _ _ notEscape visible ih =>
      have plain : c ≠ '\\' := by
        rintro rfl
        cases rest with
        | nil => exact notLast rfl rfl
        | cons next more => exact notEscape next more rfl rfl
      rw [List.cons_append, scan.eq_7 c (rest ++ after) notQuote (fun same _ => plain same)
        (fun _ _ _ _ _ same _ => plain same) (fun _ same _ => plain same)
        (fun _ _ same _ => plain same), if_neg visible, ih closed]
      rfl

namespace Token

variable {cs rest after : List Char} {token : Token}

/-- Nothing is wrong with the token, whichever way it is looked at. -/
def IsWhole (token : Token) : Prop := ∀ cause, token ≠ .broken cause

theorem expectWord_behind {word : List Char} (scanned : expectWord word cs = .ok rest) :
    expectWord word (cs ++ after) = .ok (rest ++ after) := by
  induction word generalizing cs with
  | nil =>
      cases scanned
      exact expectWord.eq_1 _
  | cons expected more ih =>
      cases cs with
      | nil => contradiction
      | cons c cs =>
          rw [expectWord] at scanned
          split at scanned
          next same =>
            rw [List.cons_append, expectWord, if_pos same]
            exact ih scanned
          next => contradiction

theorem scanWord_behind {word : List Char} {value : Scalar} {isNull : Bool}
    (scanned : scanWord word value isNull cs = (token, rest)) (whole : token.IsWhole) :
    scanWord word value isNull (cs ++ after) = (token, rest ++ after) := by
  rw [scanWord] at scanned
  split at scanned
  next left found =>
    cases scanned
    rw [scanWord, expectWord_behind found]
  next =>
    cases scanned
    exact absurd rfl (whole _)

theorem scanNumeral_behind (scanned : scanNumeral cs = (token, rest)) (whole : token.IsWhole)
    (ends : Numeral.Ends after) : scanNumeral (cs ++ after) = (token, rest ++ after) := by
  rw [scanNumeral] at scanned
  split at scanned
  next n left found =>
    cases scanned
    rw [scanNumeral, Numeral.scan_behind found ends]
  next =>
    cases scanned
    exact absurd rfl (whole _)

theorem scanLiteral_behind (scanned : scanLiteral cs = (token, rest)) (whole : token.IsWhole) :
    scanLiteral (cs ++ after) = (token, rest ++ after) := by
  simp only [scanLiteral] at scanned
  split at scanned
  next closed =>
    cases scanned
    simp only [scanLiteral, Literal.scan_behind closed after, closed]
  next =>
    cases scanned
    exact absurd rfl (whole _)
  next =>
    cases scanned
    exact absurd rfl (whole _)

/-- A whole token is the same whatever stands behind it. -/
theorem scan_behind {c : Char} (scanned : scan c cs = (token, rest)) (whole : token.IsWhole)
    (ends : Numeral.Ends after) : scan c (cs ++ after) = (token, rest ++ after) := by
  rw [scan.eq_def] at scanned
  split at scanned
  case h_7 => exact scanLiteral_behind scanned whole
  case h_8 | h_9 | h_10 => exact scanWord_behind scanned whole
  case h_11 square _ curly _ comma colon quote null true false =>
    rw [scan.eq_11 c _ square ‹_› curly ‹_› comma colon quote null true false]
    split at scanned
    next begins =>
      rw [if_pos begins]
      exact scanNumeral_behind scanned whole ends
    next =>
      cases scanned
      exact absurd rfl (whole _)
  all_goals
    cases scanned
    rfl

/-- Whole tokens are cut off alike whatever stands behind all of them. The induction is over the length of
the text, of which the first token takes a part. -/
theorem ofText_behind {text after : List Char} (whole : ∀ token ∈ ofText text, token.IsWhole)
    (ends : Numeral.Ends after) : ofText (text ++ after) = ofText text ++ ofText after := by
  induction length : text.length using Nat.strongRecOn generalizing text with
  | ind length ih =>
      subst length
      cases text with
      | nil => rfl
      | cons c cs =>
          cases space : isSpace c with
          | true =>
              rw [List.cons_append, ofText_space space, ofText_space space]
              rw [ofText_space space] at whole
              exact ih cs.length (Nat.lt_succ_self _) whole rfl
          | false =>
              have shorter := length_scan c cs
              obtain ⟨token, rest, scanned⟩ : ∃ token rest, scan c cs = (token, rest) :=
                ⟨_, _, rfl⟩
              rw [scanned] at shorter
              rw [ofText_cons space scanned] at whole ⊢
              obtain ⟨first, others⟩ := List.forall_mem_cons.mp whole
              have behind := scan_behind scanned first ends
              rw [List.cons_append, ofText_cons space behind, List.cons_append,
                ih rest.length (Nat.lt_succ_of_le shorter) others rfl]

end Token

/-! ### Trees -/

/-- Every container in the tree closes, and no value is missing. -/
def Tree.IsComplete (tree : Tree) : Prop := tree.skip = .ok ()

namespace Growth

/-- Something is still due. -/
def IsOpen (growth : Growth) : Prop := ∀ document, growth ≠ finished document

/-- The same inside more containers. -/
def under (outer : List Frame) : Growth → Growth
  | value frames => value (frames ++ outer)
  | listStart frames => listStart (frames ++ outer)
  | afterItem items frames => afterItem items (frames ++ outer)
  | afterListComma items frames => afterListComma items (frames ++ outer)
  | objectStart frames => objectStart (frames ++ outer)
  | afterKey members key frames => afterKey members key (frames ++ outer)
  | afterMember members frames => afterMember members (frames ++ outer)
  | afterObjectComma members frames => afterObjectComma members (frames ++ outer)
  | finished document => finished document

/-- What a token leads to, and what it leads to inside more containers: the same, or what the complete tree
is delivered to. Nothing is said of what has halted, for that is never complete. -/
inductive Continues (token : Token) : Growth → (List Frame → Growth) → Prop where
  | grown (whole : token.IsWhole) (next : Growth) (isOpen : next.IsOpen) :
      Continues token next fun outer => next.under outer
  | delivered (whole : token.IsWhole) (tree : Tree) :
      Continues token (finished ⟨tree, false⟩) fun outer => deliver tree outer
  | halted (root : Tree) (incomplete : ¬root.IsComplete) (inside : List Frame → Growth) :
      Continues token (finished ⟨root, false⟩) inside

theorem not_isComplete_array {items : List Tree} {stop : Stop} (unclosed : stop ≠ .closed) :
    ¬(Tree.array items stop).IsComplete :=
  fun complete => unclosed (Tree.skip_array_iff.mp complete).1

theorem not_isComplete_object {members : List (Literal × Tree)} {stop : Stop}
    (unclosed : stop ≠ .closed) : ¬(Tree.object members stop).IsComplete :=
  fun complete => unclosed (Tree.skip_object_iff.mp complete).1

theorem not_isComplete_broken (cause : Break) : ¬(Tree.broken cause).IsComplete := nofun

/-- Containers that end where they are do not close. -/
theorem not_isComplete_enclose {tree : Tree} (incomplete : ¬tree.IsComplete) (frames : List Frame) :
    ¬(enclose tree frames).IsComplete := by
  induction frames generalizing tree with
  | nil => exact incomplete
  | cons frame frames ih =>
      cases frame with
      | list items => exact ih (not_isComplete_array nofun)
      | object members key => exact ih (not_isComplete_object nofun)

theorem not_isComplete_finish {growth : Growth} (isOpen : growth.IsOpen) :
    ¬growth.finish.root.IsComplete := by
  cases growth with
  | value frames => exact not_isComplete_enclose (not_isComplete_broken _) frames
  | listStart frames => exact not_isComplete_enclose (not_isComplete_array (by nofun)) frames
  | afterItem items frames => exact not_isComplete_enclose (not_isComplete_array (by nofun)) frames
  | afterListComma items frames => exact not_isComplete_enclose (not_isComplete_array (by nofun)) frames
  | objectStart frames => exact not_isComplete_enclose (not_isComplete_object (by nofun)) frames
  | afterKey members key frames => exact not_isComplete_enclose (not_isComplete_object (by nofun)) frames
  | afterMember members frames => exact not_isComplete_enclose (not_isComplete_object (by nofun)) frames
  | afterObjectComma members frames =>
      exact not_isComplete_enclose (not_isComplete_object (by nofun)) frames
  | finished document => exact absurd rfl (isOpen document)

section Steps

variable {token : Token} (frames : List Frame)

theorem continues_deliver (whole : token.IsWhole) (tree : Tree) :
    Continues token (deliver tree frames) fun outer => deliver tree (frames ++ outer) := by
  cases frames with
  | nil => exact .delivered whole tree
  | cons frame frames =>
      cases frame with
      | list items => exact .grown whole (afterItem (tree :: items) frames) (by nofun)
      | object members key => exact .grown whole (afterMember ((key, tree) :: members) frames) (by nofun)

theorem continues_halt {tree : Tree} (incomplete : ¬tree.IsComplete)
    (inside : List Frame → Growth) : Continues token (halt tree frames) inside :=
  .halted _ (not_isComplete_enclose incomplete frames) inside

theorem continues_begin (token : Token) :
    Continues token (begin frames token) fun outer => begin (frames ++ outer) token := by
  cases token with
  | opening bracket =>
      cases bracket with
      | square => exact .grown (by nofun) (listStart frames) (by nofun)
      | curly => exact .grown (by nofun) (objectStart frames) (by nofun)
  | scalar s => exact continues_deliver frames (by nofun) (.scalar s)
  | closing _ => exact continues_halt frames (not_isComplete_broken _) _
  | comma => exact continues_halt frames (not_isComplete_broken _) _
  | colon => exact continues_halt frames (not_isComplete_broken _) _
  | broken _ => exact continues_halt frames (not_isComplete_broken _) _

theorem continues_beginKey (members : List (Literal × Tree)) (token : Token) :
    Continues token (beginKey members frames token) fun outer =>
      beginKey members (frames ++ outer) token := by
  have halts (inside : List Frame → Growth) :
      Continues token (haltObject members (.badKey token) frames) inside :=
    continues_halt frames (not_isComplete_object (by nofun)) inside
  cases token with
  | scalar s =>
      cases s with
      | string key => exact .grown (by nofun) (afterKey members key frames) (by nofun)
      | null => exact halts _
      | bool _ => exact halts _
      | number _ => exact halts _
  | opening _ => exact halts _
  | closing _ => exact halts _
  | comma => exact halts _
  | colon => exact halts _
  | broken _ => exact halts _

end Steps

/-- Containers further out are not looked at before the innermost tree is complete. -/
theorem continues_step {growth : Growth} (isOpen : growth.IsOpen) (token : Token) :
    Continues token (growth.step token) fun outer => (growth.under outer).step token := by
  cases growth with
  | value frames => exact continues_begin frames token
  | listStart frames =>
      cases token with
      | closing bracket =>
          cases bracket with
          | square => exact continues_deliver frames (by nofun) (.array [] .closed)
          | curly => exact continues_begin (.list [] :: frames) (.closing .curly)
      | _ => exact continues_begin (.list [] :: frames) _
  | afterItem items frames =>
      have halts (inside : List Frame → Growth) :
          Continues token (haltList items .noComma frames) inside :=
        continues_halt frames (not_isComplete_array (by nofun)) inside
      cases token with
      | comma => exact .grown (by nofun) (afterListComma items frames) (by nofun)
      | closing bracket =>
          cases bracket with
          | square => exact continues_deliver frames (by nofun) (.array items.reverse .closed)
          | curly => exact halts _
      | _ => exact halts _
  | afterListComma items frames =>
      cases token with
      | closing bracket =>
          cases bracket with
          | square => exact continues_halt frames (not_isComplete_array (by nofun)) _
          | curly => exact continues_begin (.list items :: frames) (.closing .curly)
      | _ => exact continues_begin (.list items :: frames) _
  | objectStart frames =>
      cases token with
      | closing bracket =>
          cases bracket with
          | square => exact continues_beginKey frames [] (.closing .square)
          | curly => exact continues_deliver frames (by nofun) (.object [] .closed)
      | _ => exact continues_beginKey frames [] _
  | afterKey members key frames =>
      cases token with
      | colon => exact .grown (by nofun) (value (.object members key :: frames)) (by nofun)
      | _ => exact continues_halt frames (not_isComplete_object (by nofun)) _
  | afterMember members frames =>
      have halts (inside : List Frame → Growth) :
          Continues token (haltObject members .noComma frames) inside :=
        continues_halt frames (not_isComplete_object (by nofun)) inside
      cases token with
      | comma => exact .grown (by nofun) (afterObjectComma members frames) (by nofun)
      | closing bracket =>
          cases bracket with
          | square => exact halts _
          | curly => exact continues_deliver frames (by nofun) (.object members.reverse .closed)
      | _ => exact halts _
  | afterObjectComma members frames =>
      cases token with
      | closing bracket =>
          cases bracket with
          | square => exact continues_beginKey frames members (.closing .square)
          | curly => exact continues_halt frames (not_isComplete_object (by nofun)) _
      | _ => exact continues_beginKey frames members _
  | finished document => exact absurd rfl (isOpen document)

/-- Nothing but text behind it can come after the end. -/
theorem foldl_step_finished (tokens : List Token) (document : Document) :
    tokens.foldl step (finished document) =
      finished { document with trailing := document.trailing || !tokens.isEmpty } := by
  induction tokens generalizing document with
  | nil => simp
  | cons token rest ih =>
      rw [List.foldl_cons, step, ih]
      simp

/-- Tokens that make up a complete tree are whole, and the tree is delivered wherever they stand. The
induction is over the tokens, for whatever has grown so far. -/
theorem foldl_step_under {growth : Growth} (isOpen : growth.IsOpen) {tokens : List Token}
    {tree : Tree} (ends : (tokens.foldl step growth).finish = ⟨tree, false⟩)
    (complete : tree.IsComplete) :
    (∀ token ∈ tokens, token.IsWhole) ∧
      ∀ outer, tokens.foldl step (growth.under outer) = deliver tree outer := by
  induction tokens generalizing growth with
  | nil =>
      have open_ := not_isComplete_finish isOpen
      rw [List.foldl_nil] at ends
      rw [ends] at open_
      exact absurd complete open_
  | cons token rest ih =>
      have continues := continues_step isOpen token
      rw [List.foldl_cons] at ends
      generalize stepped : growth.step token = next at continues ends
      generalize inside : (fun outer => (growth.under outer).step token) = nextInside at continues
      have insideAt (outer : List Frame) : (growth.under outer).step token = nextInside outer :=
        congrFun inside outer
      cases continues with
      | grown whole _ nextOpen =>
          obtain ⟨others, delivers⟩ := ih nextOpen ends
          refine ⟨List.forall_mem_cons.mpr ⟨whole, others⟩, fun outer => ?_⟩
          rw [List.foldl_cons, insideAt]
          exact delivers outer
      | delivered whole found =>
          rw [foldl_step_finished] at ends
          obtain ⟨rfl, nothing⟩ := Document.mk.inj ends
          obtain rfl : rest = [] := by simpa using nothing
          refine ⟨List.forall_mem_cons.mpr ⟨whole, nofun⟩, fun outer => ?_⟩
          rw [List.foldl_cons, insideAt]
          rfl
      | halted root incomplete =>
          rw [foldl_step_finished] at ends
          obtain ⟨rfl, -⟩ := Document.mk.inj ends
          exact absurd complete incomplete

theorem begin_closing (frames : List Frame) (bracket : Bracket) :
    begin frames (.closing bracket) = halt (.broken .stray) frames := rfl

/-- A complete tree begins with a token that can stand wherever a value is due. -/
theorem foldl_step_of_awaits {growth : Growth} {frames : List Frame} (awaits : growth.Awaits frames)
    {tokens : List Token} {tree : Tree}
    (ends : (tokens.foldl step (value [])).finish = ⟨tree, false⟩) (complete : tree.IsComplete) :
    tokens.foldl step growth = tokens.foldl step (value frames) := by
  cases tokens with
  | nil =>
      cases ends
      exact absurd complete (not_isComplete_broken _)
  | cons token rest =>
      have opens : ∀ bracket, token ≠ .closing bracket := by
        rintro bracket rfl
        rw [List.foldl_cons, step, begin_closing, halt, foldl_step_finished] at ends
        obtain ⟨rfl, -⟩ := Document.mk.inj ends
        exact not_isComplete_broken _ complete
      rw [List.foldl_cons, List.foldl_cons, awaits token opens]
      rfl

end Growth

/-- The text holds this one value, complete, and nothing else. -/
structure Holds (text : String) (tree : Tree) : Prop where
  document : Document.ofText text = ⟨tree, false⟩
  complete : tree.IsComplete

/-- The text of a value can stand wherever a value is due, before anything that does not go on with it. -/
theorem Holds.run {text : String} {tree : Tree} (holds : Holds text tree) {growth : Growth}
    {frames : List Frame} (awaits : growth.Awaits frames) {rest : List Char}
    (ends : Numeral.Ends rest) :
    growth.run (text.toList ++ rest) = (Growth.deliver tree frames).run rest := by
  have isOpen : (Growth.value []).IsOpen := by nofun
  obtain ⟨whole, delivers⟩ := Growth.foldl_step_under isOpen holds.document holds.complete
  have delivered : (Token.ofText text.toList).foldl Growth.step growth =
      Growth.deliver tree frames := by
    rw [Growth.foldl_step_of_awaits awaits holds.document holds.complete]
    exact delivers frames
  rw [Growth.run, Token.ofText_behind whole ends, List.foldl_append, delivered, Growth.run]

end VolBacktest.Json
