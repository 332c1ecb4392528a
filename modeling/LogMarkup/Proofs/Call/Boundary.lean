import LogMarkup.Proofs.Call.Character
import LogMarkup.Proofs.Call.Cover
import LogMarkup.Proofs.Call.Walk
import Mathlib.Data.List.Infix
import Mathlib.Order.Bounds.Defs

/-!
# `LogMarkup.Proofs.Call.Boundary` — the statement that a call belongs to

A call starts below the last line above it on which a statement ends. Two parts of the search for calls read
a line for that: the climb looks for the last mark of the line, and the walk for the end of the call says
which marks are code. They agree on strings, and on comments up to the end of the line. But the climb knows
nothing of character literals and goes through them byte by byte. That makes no difference, since it comes
to the closing apostrophe, as long as there is no quote between the two apostrophes and no mark of a comment.

## Contents
- **Marks.** `CodeKind.mark?` and `isStatementBoundary`, how the walk judges a line.
- **Lines.** `IsPlainLine`; `lastMark_step`, one item of a plain line, and from it `lastMark_eq` by induction
  over the walk; `closesStatement_eq_isStatementBoundary`.
- **The climb.** `climb_isLeast`.
- **Documents.** `callFloor`, and `isAround_of_callsFrom_eq` for the calls one by one; `calls_start_isLeast` —
  a call starts on the least line from which no statement ends down to the line it is recognised by — and
  `calls_start_not_isLeast`, where a character literal hides a quote.
-/

namespace LogMarkup

open Ascii

/-! ## Marks -/

/-- The mark that an item leaves on its line: strings leave a quote and character literals an apostrophe,
    white space and comments leave none. -/
def CodeKind.mark? : CodeKind → Option UInt8
  | .literal => some quote
  | .character => some apostrophe
  | .comment => none
  | .plain b => if isSpace b then none else some b

/-- The items of a line. No parenthesis ends this walk, since all of them are in front of its trigger. -/
def lineItems (line : Bytes) : List PlacedItem := walk line.length 0 0 0 line

/-- The last mark that an item of the line leaves. -/
def lastCodeMark? (line : Bytes) : Option UInt8 :=
  ((lineItems line).filterMap (·.item.kind.mark?)).getLast?

/-- Whether a statement ends on a line, as the walk reads it. -/
def isStatementBoundary (line : Bytes) : Bool :=
  line.unindented == [] || [slash, slash].isPrefixOf line.unindented
    || (lastCodeMark? line).any isStatementEnd

/-! ## Lines -/

/-- There is no quote in a part of a text, and no mark of a comment. -/
structure HidesNothing (part : Bytes) : Prop where
  quote_notMem : quote ∉ part
  not_slashes : ¬ [slash, slash] <:+: part

/-- A line whose character literals hide nothing, and whose comments take all that is left of it. -/
structure IsPlainLine (line : Bytes) : Prop where
  character : ∀ placed ∈ lineItems line, placed.item.kind = .character →
    HidesNothing (line.extract placed.start placed.stop)
  comment : ∀ placed ∈ lineItems line, placed.item.kind = .comment → placed.stop = line.length

instance (part : Bytes) : Decidable (HidesNothing part) :=
  decidable_of_iff (quote ∉ part ∧ ¬ [slash, slash] <:+: part)
    ⟨fun h => ⟨h.1, h.2⟩, fun h => ⟨h.quote_notMem, h.not_slashes⟩⟩

instance (line : Bytes) : Decidable (IsPlainLine line) :=
  decidable_of_iff
    ((∀ placed ∈ lineItems line, placed.item.kind = .character →
        HidesNothing (line.extract placed.start placed.stop)) ∧
      ∀ placed ∈ lineItems line, placed.item.kind = .comment → placed.stop = line.length)
    ⟨fun h => ⟨h.1, h.2⟩, fun h => ⟨h.character, h.comment⟩⟩

theorem HidesNothing.mono {part part' : Bytes} (h : HidesNothing part) (hwithin : part' <:+: part) :
    HidesNothing part' := by
  refine ⟨?_, ?_⟩
  · intro hmem
    exact h.quote_notMem (hwithin.subset hmem)
  · intro hslashes
    exact h.not_slashes (hslashes.trans hwithin)

/-- A comment is what starts with two slashes. -/
theorem CodeItem.kind_first_eq_comment_iff {b : UInt8} {rest : Bytes} :
    (first b rest).kind = .comment ↔ b = slash ∧ rest.head? = some slash := by
  constructor
  · intro h
    unfold first at h
    cases hread : Literal.read? 0 (b :: rest) with
    | some literal =>
        rw [hread] at h
        exact absurd h (by simp)
    | none =>
        simp only [hread] at h
        by_cases hapostrophe : b = apostrophe
        · rw [if_pos hapostrophe] at h
          exact absurd h (by simp)
        · rw [if_neg hapostrophe] at h
          by_contra hslashes
          rw [if_neg hslashes] at h
          exact absurd h (by simp)
  · rintro ⟨rfl, hhead⟩
    rw [first, Literal.read?_eq_none (by decide)]
    dsimp only
    rw [if_neg (by decide), if_pos ⟨rfl, hhead⟩]

/-- **The search for the last mark comes through the inside of a character literal**, and takes the
    apostrophe behind it for the last mark, if nothing is hidden in it. -/
theorem lastMark_inside {inside behind : Bytes} (h : HidesNothing inside) (last : Option UInt8) :
    lastMark last (inside ++ apostrophe :: behind) = lastMark (some apostrophe) behind := by
  induction inside generalizing last with
  | nil =>
      show lastMark last (apostrophe :: behind) = _
      rw [lastMark, Literal.read?_eq_none (by decide)]
      dsimp only
      rw [if_neg fun hslashes => absurd hslashes.1 (by decide), if_neg (by decide)]
  | cons c inside ih =>
      have hread : Literal.read? 0 (c :: inside ++ apostrophe :: behind) = none :=
        Literal.read?_append_eq_none_of_stop h.quote_notMem (by decide)
      have hslashes : ¬ (c = slash ∧ (inside ++ apostrophe :: behind).head? = some slash) := by
        rintro ⟨rfl, hhead⟩
        cases inside with
        | nil => exact absurd (Option.some.inj hhead) (by decide)
        | cons d inside =>
            obtain rfl := Option.some.inj hhead
            exact h.not_slashes ⟨[], inside, rfl⟩
      have hinside : HidesNothing inside := h.mono (List.suffix_cons c inside).isInfix
      show lastMark last (c :: (inside ++ apostrophe :: behind)) = _
      rw [lastMark, show Literal.read? 0 (c :: (inside ++ apostrophe :: behind)) = none from hread]
      dsimp only
      rw [if_neg hslashes]
      exact ih hinside _

/-- **One item**: the search for the last mark comes to the mark that the item leaves, and goes on behind the
    item. -/
theorem lastMark_step {b : UInt8} {rest : Bytes} (last : Option UInt8)
    (hcharacter : (CodeItem.first b rest).kind = .character →
      HidesNothing ((b :: rest).take (CodeItem.first b rest).width))
    (hcomment : (CodeItem.first b rest).kind = .comment →
      (CodeItem.first b rest).width = rest.length + 1) :
    lastMark last (b :: rest) = lastMark ((CodeItem.first b rest).kind.mark?.or last)
      (rest.drop ((CodeItem.first b rest).width - 1)) := by
  rcases CodeItem.first_cases 0 b rest with
    ⟨literal, hread, hitem⟩ | ⟨hread, ⟨rfl, -⟩ | ⟨-, hkind⟩ | hitem⟩
  · rw [hitem, lastMark, hread]
    rfl
  · rw [CodeItem.first_apostrophe] at hcharacter ⊢
    rcases CodeItem.characterWidth_cases rest with hlone | ⟨body, behind, hbody, rfl⟩
    · rw [hlone]
      have hnothing : HidesNothing [] := ⟨List.not_mem_nil, by simp⟩
      exact lastMark_inside hnothing last
    · have hwidth := CodeItem.characterWidth_body hbody behind
      have htake : (apostrophe :: (body ++ apostrophe :: behind)).take (body.length + 2)
          = apostrophe :: body ++ [apostrophe] := by
        rw [List.take_succ_cons, List.take_length_add_append]
        rfl
      have hinside : HidesNothing (apostrophe :: body) := by
        have hall := hcharacter rfl
        rw [hwidth, htake] at hall
        exact hall.mono (List.prefix_append _ _).isInfix
      have hdrop : (body ++ apostrophe :: behind).drop (body.length + 1) = behind := by
        rw [List.drop_length_add_append]
        rfl
      rw [hwidth]
      show _ = lastMark (some apostrophe) ((body ++ apostrophe :: behind).drop (body.length + 1))
      rw [hdrop]
      exact lastMark_inside hinside last
  · obtain ⟨hslash, hhead⟩ := CodeItem.kind_first_eq_comment_iff.mp hkind
    rw [hcomment hkind, hkind, lastMark, hread]
    dsimp only
    rw [if_pos ⟨hslash, hhead⟩, Nat.add_sub_cancel, List.drop_length, lastMark]
    rfl
  · have hslashes : ¬ (b = slash ∧ rest.head? = some slash) := by
      intro hslashes
      have hkind := CodeItem.kind_first_eq_comment_iff.mpr hslashes
      rw [hitem] at hkind
      exact absurd hkind (by simp)
    rw [hitem, lastMark, hread]
    dsimp only
    rw [if_neg hslashes]
    show _ = lastMark ((if isSpace b then none else some b).or last) rest
    split
    · rfl
    · rfl

/-- The last value of a list is that of its head if no other element has one. -/
theorem getLast?_filterMap_cons_or {α β : Type} (f : α → Option β) (first : α) (others : List α)
    (last : Option β) :
    ((first :: others).filterMap f).getLast?.or last
      = (others.filterMap f).getLast?.or ((f first).or last) := by
  cases hfirst : f first with
  | none => rw [List.filterMap_cons_none hfirst, Option.none_or]
  | some value =>
      rw [List.filterMap_cons_some hfirst, List.getLast?_cons, Option.some_or, Option.some_or]
      cases (others.filterMap f).getLast? with
      | none => rfl
      | some found => rfl

/-- **The search for the last mark of a text finds the last one that an item leaves**, by induction over the
    items. -/
theorem lastMark_eq {whole text : Bytes} {trigger opened closed start : Nat} (last : Option UInt8)
    (htext : whole.drop start = text) (htrigger : whole.length ≤ trigger)
    (hcharacter : ∀ placed ∈ walk trigger opened closed start text, placed.item.kind = .character →
      HidesNothing (whole.extract placed.start placed.stop))
    (hcomment : ∀ placed ∈ walk trigger opened closed start text, placed.item.kind = .comment →
      placed.stop = whole.length) :
    lastMark last text = ((walk trigger opened closed start text).filterMap
      (·.item.kind.mark?)).getLast?.or last := by
  fun_induction walk trigger opened closed start text generalizing last with
  | case1 => rw [lastMark, List.filterMap_nil, List.getLast?_nil, Option.none_or]
  | case2 opened closed start b rest item opened' closed' hclose =>
      have hlt := Bytes.lt_of_drop_eq_cons htext
      have htrigger' := hclose.2.1
      omega
  | case3 opened closed start b rest item opened' closed' hopen ih =>
      have hlength := Bytes.length_of_drop_eq_cons htext
      have hhead : (⟨start, item⟩ : PlacedItem) ∈ ⟨start, item⟩ ::
          walk trigger opened' closed' (start + item.width) (rest.drop (item.width - 1)) :=
        List.mem_cons_self
      have hinside : item.kind = .character → HidesNothing ((b :: rest).take item.width) := by
        intro hkind
        have hhides := hcharacter _ hhead hkind
        rw [List.extract_eq_take_drop, htext, PlacedItem.stop, Nat.add_sub_cancel_left] at hhides
        exact hhides
      have hend : item.kind = .comment → item.width = rest.length + 1 := by
        intro hkind
        have hstop : start + item.width = whole.length := hcomment _ hhead hkind
        omega
      have hnext := ih (item.kind.mark?.or last)
        (Bytes.drop_add_of_drop_eq_cons htext (CodeItem.width_first_pos b rest))
        (fun placed hmem => hcharacter placed (List.mem_cons_of_mem _ hmem))
        (fun placed hmem => hcomment placed (List.mem_cons_of_mem _ hmem))
      rw [lastMark_step last hinside hend, hnext]
      exact (getLast?_filterMap_cons_or (fun placed : PlacedItem => placed.item.kind.mark?)
        ⟨start, item⟩ _ last).symm

/-- **The climb and the walk judge a plain line alike.** -/
theorem closesStatement_eq_isStatementBoundary {line : Bytes} (h : IsPlainLine line) :
    closesStatement line = isStatementBoundary line := by
  have hmark : lastMark none line = lastCodeMark? line := by
    have hitems := lastMark_eq none rfl (Nat.le_refl _) h.character h.comment
    rw [Option.or_none] at hitems
    exact hitems
  rw [closesStatement, isStatementBoundary, hmark]

/-! ## The climb -/

/-- The climb ends on the lowest line, or below the end of a statement. -/
theorem climb_eq_or_closes (document : Document) {lowest line : Nat} (h : lowest ≤ line) :
    climb document lowest line = lowest ∨
      ∃ above, climb document lowest line = above + 1 ∧ lowest ≤ above ∧ above < line ∧
        closesStatement (document.line above) = true := by
  induction line with
  | zero => exact .inl (Nat.le_zero.mp h).symm
  | succ line ih =>
      rw [climb]
      split
      · next hclimb =>
          refine (ih hclimb.1).imp_right ?_
          rintro ⟨above, hstart, hlowest, hlt, hcloses⟩
          exact ⟨above, hstart, hlowest, Nat.lt_succ_of_lt hlt, hcloses⟩
      · next hstop =>
          rcases Nat.lt_or_eq_of_le h with hlt | rfl
          · refine .inr ⟨line, rfl, Nat.le_of_lt_succ hlt, Nat.lt_succ_self line, ?_⟩
            rw [← Bool.not_eq_false]
            exact fun hopen => hstop ⟨Nat.le_of_lt_succ hlt, hopen⟩
          · exact .inl rfl

/-- **The climb ends on the least line from which no statement ends down to its start**, if the lines that it
    looks at are judged right. -/
theorem climb_isLeast {document : Document} {lowest line : Nat} {closes : Nat → Bool}
    (h : lowest ≤ line)
    (hcloses : ∀ n, lowest ≤ n → climb document lowest line ≤ n + 1 → n < line →
      closesStatement (document.line n) = closes n) :
    IsLeast {start | lowest ≤ start ∧ start ≤ line ∧ ∀ n, start ≤ n → n < line → closes n = false}
      (climb document lowest line) := by
  have hlow := le_climb document h
  refine ⟨⟨hlow, climb_le document lowest line, ?_⟩, ?_⟩
  · intro n hstart hlt
    rw [← hcloses n (hlow.trans hstart) (Nat.le_succ_of_le hstart) hlt]
    exact closesStatement_of_climb_le hstart hlt
  · rintro start ⟨hlowest, -, hopen⟩
    rcases climb_eq_or_closes document h with heq | ⟨above, heq, habove, hlt, hclose⟩
    · rw [heq]
      exact hlowest
    · -- A start further up would climb over the line on which a statement ends.
      by_contra hhigher
      rw [hcloses above habove (Nat.le_of_eq heq) hlt] at hclose
      rw [hopen above (by omega) hlt] at hclose
      exact absurd hclose (by simp)

/-! ## Documents -/

/-- The first line below the calls that were found, or `free` if there are none. -/
def callFloor (free : Nat) (found : List Span) : Nat :=
  (found.getLast?.map (·.stop.line + 1)).getD free

theorem callFloor_cons (free : Nat) (first : Span) (found : List Span) :
    callFloor free (first :: found) = callFloor (first.stop.line + 1) found := by
  cases found with
  | nil => rfl
  | cons second found =>
      unfold callFloor
      rw [List.getLast?_cons_cons]
      cases hlast : (second :: found).getLast? with
      | none => exact absurd hlast (by simp)
      | some last => rfl

/-- **Each call of a search is the one around its first recognised line**, below the calls in front of it. -/
theorem isAround_of_callsFrom_eq {document : Document} {config : Config} {free n : Nat}
    {lines : List Bytes} {before after : List Span} {call : Span}
    (hlimits : 0 < config.limits.callLines) (hlines : document.lines.drop n = lines)
    (hpassed : ∀ line, free ≤ line → line < n →
      config.shapes.accepts (document.line line) = false)
    (hcalls : callsFrom document config free n lines = before ++ call :: after) :
    ∃ trigger, call.IsAround document config trigger ∧ callFloor free before ≤ trigger ∧
      call = callAt document config.limits trigger (callFloor free before) := by
  revert before
  fun_induction callsFrom document config free n lines with
  | case1 free n =>
      intro before hcalls
      exact absurd hcalls (by simp)
  | case2 free n line lines hopen first ih =>
      intro before hcalls
      obtain ⟨hn, hline, hbehind⟩ := Document.of_drop_eq_cons hlines
      rw [← hline] at hopen
      have haround : first.IsAround document config n :=
        isAround_callAt hlimits hn hopen.1 hopen.2 hpassed
      cases before with
      | nil =>
          obtain ⟨rfl, -⟩ := List.cons.inj hcalls
          exact ⟨n, haround, hopen.1, rfl⟩
      | cons head before =>
          obtain ⟨rfl, hrest⟩ := List.cons.inj hcalls
          rw [callFloor_cons]
          apply ih hbehind _ hrest
          intro line hle hlt
          have hbelow := haround.le_stop
          omega
  | case3 free n line lines hopen ih =>
      intro before hcalls
      obtain ⟨hn, hline, hbehind⟩ := Document.of_drop_eq_cons hlines
      rw [← hline] at hopen
      exact ih hbehind (accepts_eq_false_of_lt_succ hpassed hopen) hcalls

/-- **A call starts on the least line from which no statement ends down to its first recognised line**, below
    the call in front of it and as far up as the bounds allow, if the lines that the climb looks at are
    plain. -/
theorem calls_start_isLeast {document : Document} {config : Config} {before after : List Span}
    {call : Span} (hlimits : config.limits.check = .ok config.limits)
    (hcalls : calls document config = before ++ call :: after) :
    ∃ trigger, call.IsAround document config trigger ∧
      let lowest := max (trigger - config.limits.callLookback) (callFloor 0 before)
      (∀ n, lowest ≤ n → call.start.line ≤ n + 1 → n < trigger → IsPlainLine (document.line n)) →
        IsLeast {start | lowest ≤ start ∧ start ≤ trigger ∧
          ∀ n, start ≤ n → n < trigger → isStatementBoundary (document.line n) = false}
          call.start.line := by
  have hlines : 0 < config.limits.callLines := (Limits.check_eq_ok_iff.mp hlimits).2 .callLines
  obtain ⟨trigger, haround, hfloor, hcall⟩ :=
    isAround_of_callsFrom_eq hlines rfl (by simp) hcalls
  refine ⟨trigger, haround, ?_⟩
  intro lowest hplain
  have hstart : call.start.line = climb document lowest trigger := by
    rw [hcall]
    rfl
  rw [hstart] at hplain ⊢
  have hlowest : lowest ≤ trigger := Nat.max_le.mpr ⟨Nat.sub_le _ _, hfloor⟩
  apply climb_isLeast hlowest
  intro n hle hlook hlt
  exact closesStatement_eq_isStatementBoundary (hplain n hle hlook hlt)

/-- A call below a line with a brace in a character literal, and with a comment behind its semicolon. -/
theorem calls_start_isLeast_character :
    ∃ document : Document,
      document = ⟨[Bytes.ofString "c = '\x7b'; // (", Bytes.ofString "log",
        Bytes.ofString ".Add(';');"]⟩ ∧
      ({} : Config).limits.check = .ok ({} : Config).limits ∧
      ∃ call : Span, call = ⟨⟨1, 0⟩, ⟨2, 10⟩⟩ ∧ calls document {} = [] ++ call :: [] ∧
        (∀ n, IsPlainLine (document.line n)) ∧
        ∃ trigger, call.IsAround document {} trigger ∧
          IsLeast {start | max (trigger - ({} : Config).limits.callLookback) (callFloor 0 []) ≤ start ∧
            start ≤ trigger ∧
            ∀ n, start ≤ n → n < trigger → isStatementBoundary (document.line n) = false}
            call.start.line := by
  let document : Document := ⟨[Bytes.ofString "c = '\x7b'; // (", Bytes.ofString "log",
    Bytes.ofString ".Add(';');"]⟩
  have hlimits : ({} : Config).limits.check = .ok ({} : Config).limits := rfl
  have hcalls : calls document {} = [] ++ ⟨⟨1, 0⟩, ⟨2, 10⟩⟩ :: [] := by decide +kernel
  have hplain : ∀ n, IsPlainLine (document.line n) := by
    intro n
    match n with
    | 0 => decide +kernel
    | 1 => decide +kernel
    | 2 => decide +kernel
    | n + 3 =>
        show IsPlainLine []
        decide +kernel
  obtain ⟨trigger, haround, hleast⟩ := calls_start_isLeast hlimits hcalls
  exact ⟨document, rfl, hlimits, _, rfl, hcalls, hplain, trigger, haround,
    hleast fun n _ _ _ => hplain n⟩

/-- **A quote between apostrophes can hide the end of a statement.** The climb takes it for the start of a
    string, and so the call takes along the statement in front of it. -/
theorem calls_start_not_isLeast :
    ∃ (document : Document) (call : Span),
      document = ⟨[Bytes.ofString "c = '\"';", Bytes.ofString "f.Debug(\"x\");"]⟩ ∧
      calls document {} = [call] ∧ call.start.line = 0 ∧ call.IsAround document {} 1 ∧
      isStatementBoundary (document.line 0) = true ∧
      ¬ IsLeast {start | max (1 - ({} : Config).limits.callLookback) (callFloor 0 []) ≤ start ∧
        start ≤ 1 ∧ ∀ n, start ≤ n → n < 1 → isStatementBoundary (document.line n) = false}
        call.start.line := by
  let document : Document := ⟨[Bytes.ofString "c = '\"';", Bytes.ofString "f.Debug(\"x\");"]⟩
  have hcalls : calls document {} = [⟨⟨0, 0⟩, ⟨1, 13⟩⟩] := by decide +kernel
  have haround : Span.IsAround document {} ⟨⟨0, 0⟩, ⟨1, 13⟩⟩ 1 := by
    refine ⟨by decide +kernel, ?_, by decide, by decide, by decide, by decide⟩
    intro line _ hlt
    obtain rfl := Nat.lt_one_iff.mp hlt
    decide +kernel
  have hboundary : isStatementBoundary (document.line 0) = true := by decide +kernel
  refine ⟨document, _, rfl, hcalls, rfl, haround, hboundary, ?_⟩
  intro hleast
  have hopen := hleast.1.2.2 0 (Nat.le_refl 0) Nat.one_pos
  rw [hboundary] at hopen
  exact absurd hopen (by simp)

end LogMarkup
