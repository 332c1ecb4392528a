import LogMarkup.Proofs.Call.Character
import LogMarkup.Proofs.Call.Walk
import LogMarkup.Proofs.Literal.Ahead
import LogMarkup.Proofs.Literal.Grammar

/-!
# `LogMarkup.Proofs.Call.Replace` — parts of a call that do not count

Parentheses in strings and comments do not count for the end of a call. So it makes no difference what such
a part says: put another string or another comment in its place, and the call ends as far behind it as
before. Two things have to be shown. In front of the part the walk takes the same items in both texts,
since none of them looks further ahead than the part's first byte. And behind the part, which is one item
in both, it goes on with the same numbers of parentheses, in the same text.

For characters between apostrophes the first of the two always holds. But the apostrophe behind a character
of more than one byte is not skipped with it, and may start a literal with what is behind.

## Contents
- **Items.** `CodeItem.first_congr`, for an item in front of two texts that look alike.
- **The walk.** `Reaches`, and `exists_balance_eq` — two walks that come to the same place have counted the
  same parentheses, by induction over the items; `balance_eq_map`, for a walk that starts elsewhere.
- **Skipped parts.** `Skips`, and `callEnd?_replace_of_skips`.
- **Strings and comments.** `IsPassed`, and `callEnd?_replace`.
- **Character literals.** `callEnd?_character`, for characters of any size, and `callEnd?_character_wide`, where
  the size makes a difference.
-/

namespace LogMarkup

open Ascii

/-! ## Items -/

namespace CodeItem

/-- **An item that ends in front of two texts is the same for both**, if they look alike. -/
theorem first_congr {behind behind' : Bytes} (h : behind.LookAlike behind') {b : UInt8} {rest : Bytes}
    (hle : (first b (rest ++ behind)).width ≤ rest.length + 1)
    (hle' : (first b (rest ++ behind')).width ≤ rest.length + 1) :
    first b (rest ++ behind) = first b (rest ++ behind') := by
  have hread : Literal.read? 0 (b :: (rest ++ behind)) = Literal.read? 0 (b :: (rest ++ behind')) := by
    have hwidth : ∀ (behind : Bytes) (literal : Literal),
        (first b (rest ++ behind)).width ≤ rest.length + 1 →
        Literal.read? 0 (b :: rest ++ behind) = some literal → literal.width ≤ (b :: rest).length := by
      intro behind literal hle hliteral
      rw [List.cons_append] at hliteral
      rw [first, hliteral] at hle
      exact hle
    exact Literal.read?_congr h (fun literal => hwidth behind literal hle)
      (fun literal => hwidth behind' literal hle')
  have hhead := h.head?_append rest
  unfold first at hle hle' ⊢
  rw [← hread] at hle' ⊢
  cases hliteral : Literal.read? 0 (b :: (rest ++ behind)) with
  | some literal => rfl
  | none =>
      simp only [hliteral] at hle hle' ⊢
      by_cases hapostrophe : b = apostrophe
      · rw [if_pos hapostrophe] at hle hle' ⊢
        rw [if_pos hapostrophe, characterWidth_congr hle hle']
      · rw [if_neg hapostrophe] at hle hle' ⊢
        rw [if_neg hapostrophe, ← hhead]
        rw [← hhead] at hle'
        by_cases hcomment : b = slash ∧ (rest ++ behind).head? = some slash
        · rw [if_pos hcomment] at hle hle' ⊢
          rw [if_pos hcomment, Bytes.length_takeWhile_append (Nat.le_of_succ_le_succ hle),
            Bytes.length_takeWhile_append (Nat.le_of_succ_le_succ hle')]
        · rw [if_neg hcomment, if_neg hcomment]

end CodeItem

/-! ## The walk -/

/-- The search for the end of a call comes to an offset. -/
def Reaches (trigger : Nat) (text : Bytes) (offset : Nat) : Prop :=
  ∃ placed ∈ walk trigger 0 0 0 text, placed.start = offset

section

variable {trigger opened closed start : Nat} {b : UInt8} {rest : Bytes}

/-- A walk that comes to a place further on does not end with its first item, and goes on behind it. -/
theorem exists_of_mem_walk_of_lt {place : Nat}
    (h : ∃ placed ∈ walk trigger opened closed start (b :: rest), placed.start = place)
    (hlt : start < place) :
    let item := CodeItem.first b rest
    let opened' := if item.kind = .plain openParen then opened + 1 else opened
    let closed' := if item.kind = .plain closeParen then closed + 1 else closed
    ¬ (item.kind = .plain closeParen ∧ trigger ≤ start ∧ 0 < opened' ∧ opened' ≤ closed') ∧
      start + item.width ≤ place ∧
      ∃ placed ∈ walk trigger opened' closed' (start + item.width) (rest.drop (item.width - 1)),
        placed.start = place := by
  intro item opened' closed'
  obtain ⟨placed, hmem, rfl⟩ := h
  by_cases hclose : item.kind = .plain closeParen ∧ trigger ≤ start ∧ 0 < opened' ∧ opened' ≤ closed'
  · -- The only item of this walk is the first one.
    have hwalk : walk trigger opened closed start (b :: rest) = [⟨start, item⟩] := by
      rw [walk]
      exact if_pos hclose
    rw [hwalk] at hmem
    obtain rfl := List.mem_singleton.mp hmem
    exact absurd hlt (Nat.lt_irrefl start)
  · have hwalk : walk trigger opened closed start (b :: rest) = ⟨start, item⟩ ::
        walk trigger opened' closed' (start + item.width) (rest.drop (item.width - 1)) := by
      rw [walk]
      exact if_neg hclose
    rw [hwalk] at hmem
    rcases List.mem_cons.mp hmem with rfl | hmem
    · exact absurd hlt (Nat.lt_irrefl start)
    · exact ⟨hclose, le_start_of_mem_walk hmem, placed, hmem, rfl⟩

/-- **Two walks that come to the same place have counted the same parentheses** in front of it, if the texts
    there look alike. -/
theorem exists_balance_eq {behind behind' : Bytes} (h : behind.LookAlike behind') (text : Bytes)
    (hreach : ∃ placed ∈ walk trigger opened closed start (text ++ behind),
      placed.start = start + text.length)
    (hreach' : ∃ placed ∈ walk trigger opened closed start (text ++ behind'),
      placed.start = start + text.length) :
    ∃ opened' closed',
      balance trigger opened closed start (text ++ behind)
        = balance trigger opened' closed' (start + text.length) behind ∧
      balance trigger opened closed start (text ++ behind')
        = balance trigger opened' closed' (start + text.length) behind' := by
  induction hlength : text.length using Nat.strong_induction_on generalizing text opened closed start with
  | _ length ih =>
    subst hlength
    cases text with
    | nil => exact ⟨opened, closed, rfl, rfl⟩
    | cons b rest =>
        have hlt : start < start + (b :: rest).length := Nat.lt_add_of_pos_right (Nat.succ_pos _)
        rw [List.cons_append] at hreach hreach' ⊢
        obtain ⟨hopen, hle, hnext⟩ := exists_of_mem_walk_of_lt hreach hlt
        obtain ⟨hopen', hle', hnext'⟩ := exists_of_mem_walk_of_lt hreach' hlt
        rw [Nat.add_le_add_iff_left, List.length_cons] at hle hle'
        -- The item ends in front of both texts, so it is the same one in both.
        have hitem := CodeItem.first_congr h hle hle'
        rw [List.cons_append, balance_of_not_closes hopen, balance_of_not_closes hopen']
        rw [← hitem] at hnext' ⊢
        generalize hwidth : CodeItem.first b (rest ++ behind) = item at *
        have hpos : 0 < item.width := hwidth ▸ CodeItem.width_first_pos b (rest ++ behind)
        have hdrop : ∀ other : Bytes, (rest ++ other).drop (item.width - 1)
            = rest.drop (item.width - 1) ++ other := fun other =>
          List.drop_append_of_le_length (by omega)
        have hplace : start + (b :: rest).length
            = start + item.width + (rest.drop (item.width - 1)).length := by
          rw [List.length_cons, List.length_drop]
          omega
        rw [hdrop, hplace] at hnext hnext' ⊢
        rw [hdrop]
        refine ih _ ?_ _ hnext hnext' rfl
        rw [List.length_drop, List.length_cons]
        omega

end

/-- A walk that may end at each parenthesis ends as far behind its start, wherever that is. -/
theorem balance_eq_map {trigger start : Nat} (h : trigger ≤ start) (opened closed n : Nat)
    (text : Bytes) :
    balance trigger opened closed (start + n) text
      = (balance 0 opened closed n text).map (start + ·) := by
  have hthere : ∀ n, trigger ≤ start + n := fun n => h.trans (Nat.le_add_right start n)
  fun_induction balance 0 opened closed n text with
  | case1 => rw [balance, Option.map_none]
  | case2 opened closed n b rest item opened' closed' hclose =>
      exact balance_of_closes ⟨hclose.1, hthere n, hclose.2.2⟩
  | case3 opened closed n b rest item opened' closed' hopen ih =>
      have hopen' : ¬ (item.kind = .plain closeParen ∧ trigger ≤ start + n ∧ 0 < opened' ∧
          opened' ≤ closed') := by
        rintro ⟨hkind, -, hcount⟩
        exact hopen ⟨hkind, Nat.zero_le _, hcount⟩
      rw [balance_of_not_closes hopen', Nat.add_assoc]
      exact ih

/-! ## Skipped parts -/

/-- The walk steps over a part of a text without counting anything in it, and comes to the text behind
    it. -/
def Skips (part behind : Bytes) : Prop :=
  ∀ trigger opened closed start, balance trigger opened closed start (part ++ behind)
    = balance trigger opened closed (start + part.length) behind

namespace Skips

variable {part part' front behind : Bytes} {trigger opened closed : Nat}

theorem append (h : Skips part (part' ++ behind)) (h' : Skips part' behind) :
    Skips (part ++ part') behind := by
  intro trigger opened closed start
  rw [List.append_assoc, h, h', List.length_append, Nat.add_assoc]

/-- An item that is no parenthesis is skipped. -/
theorem of_first {b : UInt8} {rest : Bytes} {kind : CodeKind}
    (hitem : CodeItem.first b (rest ++ behind) = ⟨kind, rest.length + 1⟩)
    (hopen : kind ≠ .plain openParen) (hclose : kind ≠ .plain closeParen) :
    Skips (b :: rest) behind := by
  intro trigger opened closed start
  rw [List.cons_append, balance_of_not_closes]
  · simp only [hitem, if_neg hopen, if_neg hclose, Nat.add_sub_cancel, List.drop_left]
    rfl
  · intro hcloses
    rw [hitem] at hcloses
    exact hclose hcloses.1

/-- The end of a call behind a skipped part is found in the text behind the part. -/
theorem callEnd?_eq (h : Skips part behind) (htrigger : trigger ≤ front.length)
    (hbalance : balance trigger 0 0 0 (front ++ (part ++ behind))
      = balance trigger opened closed front.length (part ++ behind)) :
    callEnd? (front ++ (part ++ behind)) trigger
      = (balance 0 opened closed 0 behind).map fun stop =>
          front.length + part.length + withSemicolon behind stop := by
  have hsemicolon : ∀ stop,
      withSemicolon (front ++ (part ++ behind)) (front.length + part.length + stop)
        = front.length + part.length + withSemicolon behind stop := by
    intro stop
    have hdrop : (front ++ (part ++ behind)).drop (front.length + part.length + stop)
        = behind.drop stop := by
      rw [← List.append_assoc, ← List.length_append, List.drop_length_add_append]
    unfold withSemicolon
    simp only [hdrop]
    split
    · omega
    · rfl
  have hthere : trigger ≤ front.length + part.length := htrigger.trans (Nat.le_add_right _ _)
  rw [callEnd?, hbalance, h, ← Nat.add_zero (front.length + part.length),
    balance_eq_map hthere, Option.map_map]
  simp only [Function.comp_def, hsemicolon, Nat.add_zero]

end Skips

/-- **A skipped part may be exchanged for another one** that looks alike from in front of it. The call has an
    end in both texts or in none, and the two ends are as far behind the parts. -/
theorem callEnd?_replace_of_skips {front part part' behind : Bytes} {trigger n n' : Nat}
    (hlength : part.length + n' = part'.length + n)
    (hlook : Bytes.LookAlike (part ++ behind) (part' ++ behind))
    (hskip : Skips part behind) (hskip' : Skips part' behind)
    (hreach : Reaches trigger (front ++ (part ++ behind)) front.length)
    (hreach' : Reaches trigger (front ++ (part' ++ behind)) front.length)
    (htrigger : trigger ≤ front.length) :
    Option.Rel (fun stop stop' => stop + n' = stop' + n)
      (callEnd? (front ++ (part ++ behind)) trigger)
      (callEnd? (front ++ (part' ++ behind)) trigger) := by
  obtain ⟨opened, closed, hbalance, hbalance'⟩ : ∃ opened closed,
      balance trigger 0 0 0 (front ++ (part ++ behind))
        = balance trigger opened closed front.length (part ++ behind) ∧
      balance trigger 0 0 0 (front ++ (part' ++ behind))
        = balance trigger opened closed front.length (part' ++ behind) := by
    have hstart : 0 + front.length = front.length := Nat.zero_add _
    rw [← hstart]
    exact exists_balance_eq hlook front (hstart.symm ▸ hreach) (hstart.symm ▸ hreach')
  rw [hskip.callEnd?_eq htrigger hbalance, hskip'.callEnd?_eq htrigger hbalance']
  cases balance 0 opened closed 0 behind with
  | none => exact .none
  | some stop =>
      apply Option.Rel.some
      show front.length + part.length + withSemicolon behind stop + n'
        = front.length + part'.length + withSemicolon behind stop + n
      omega

/-! ## Strings and comments -/

/-- A part of a text in which nothing counts: a regular string literal with content, or a comment up to the
    end of its line. -/
inductive IsPassed : CodeKind → Bytes → Bytes → Prop
  | literal {body : Bytes} (behind : Bytes) : body ≠ [] → Literal.IsRegularContent body →
      IsPassed .literal (quote :: (body ++ [quote])) behind
  | comment {body behind : Bytes} : lineFeed ∉ body → behind.FollowsLine →
      IsPassed .comment (slash :: slash :: body) behind

/-- Content that is not empty starts with no quote. -/
theorem Literal.IsRegularContent.exists_eq_cons {body : Bytes} (h : IsRegularContent body)
    (hne : body ≠ []) : ∃ b rest, body = b :: rest ∧ b ≠ quote := by
  cases h with
  | nil => exact absurd rfl hne
  | single hb _ => exact ⟨_, _, rfl, hb.1⟩
  | pair hbc _ =>
      refine ⟨_, _, rfl, ?_⟩
      rw [hbc.1]
      decide

namespace IsPassed

variable {kind : CodeKind} {part part' behind : Bytes}

/-- The quote in front of a content is alone. -/
theorem run_quote {body : Bytes} (hne : body ≠ []) (hbody : Literal.IsRegularContent body)
    (behind : Bytes) : Bytes.run quote (quote :: (body ++ behind)) = 1 := by
  obtain ⟨b, rest, rfl, hb⟩ := hbody.exists_eq_cons hne
  rw [List.cons_append, Bytes.run_cons, if_pos rfl, Bytes.run_cons, if_neg hb]

/-- **The part is one item**, of its kind. -/
theorem first_eq (h : IsPassed kind part behind) :
    ∃ b rest, part = b :: rest ∧ CodeItem.first b (rest ++ behind) = ⟨kind, rest.length + 1⟩ := by
  cases h with
  | @literal body _ hne hbody =>
      refine ⟨quote, body ++ [quote], rfl, ?_⟩
      have hopener : Opener.read? (quote :: (body ++ [quote] ++ behind)) = some .regular := by
        apply Opener.read?_eq_regular_iff.mpr
        rw [List.append_assoc]
        exact .inl (run_quote hne hbody _)
      have hcontent : Enclosed.read Opener.regular.move 0
          ((quote :: (body ++ [quote] ++ behind)).drop Opener.regular.text.length) = ⟨body, true⟩ := by
        apply Opener.read_moveInLine_eq_iff.mpr
        exact ⟨behind, by simp [Opener.text], hbody⟩
      have hread : Literal.read? 0 (quote :: (body ++ [quote] ++ behind))
          = some ⟨0, .regular, body, true⟩ :=
        Literal.read?_eq_some_iff.mpr ⟨rfl, hopener, hcontent⟩
      have hwidth : Literal.width ⟨0, .regular, body, true⟩ = (body ++ [quote]).length + 1 := rfl
      rw [CodeItem.first, hread, ← hwidth]
  | @comment body _ hbody hbehind =>
      refine ⟨slash, slash :: body, rfl, ?_⟩
      have hread : Literal.read? 0 (slash :: (slash :: body ++ behind)) = none :=
        Literal.read?_eq_none (by decide)
      have hinside : ∀ c ∈ slash :: body, (c != lineFeed) = true := by
        intro c hc
        rw [bne_iff_ne]
        rintro rfl
        rcases List.mem_cons.mp hc with hslash | hmem
        · exact absurd hslash (by decide)
        · exact hbody hmem
      have hstop : ∀ c, behind.head? = some c → (c != lineFeed) = false := by
        intro c hc
        rw [hbehind c hc]
        rfl
      rw [CodeItem.first, hread]
      dsimp only
      rw [if_neg (by decide), if_pos ⟨rfl, rfl⟩, (Bytes.takeWhile_part hinside hstop).1]

theorem skips (h : IsPassed kind part behind) : Skips part behind := by
  obtain ⟨b, rest, rfl, hitem⟩ := h.first_eq
  apply Skips.of_first hitem
  · cases h <;> simp
  · cases h <;> simp

/-- Two parts of one kind look alike from in front of them. -/
theorem lookAlike (h : IsPassed kind part behind) (h' : IsPassed kind part' behind) :
    Bytes.LookAlike (part ++ behind) (part' ++ behind) := by
  cases h with
  | @literal body _ hne hbody =>
      cases h' with
      | @literal body' _ hne' hbody' =>
          refine ⟨rfl, ?_, ?_⟩
          · simp only [List.cons_append, List.append_assoc]
            rw [run_quote hne hbody, run_quote hne' hbody']
          · rintro b hb
            rw [← Option.some.inj hb]
            decide
  | comment _ _ =>
      cases h' with
      | comment _ _ => exact Bytes.lookAlike_cons (by decide) _ _

end IsPassed

/-- **Text in strings and comments does not count for the end of a call.** Where the walk comes to a string
    literal or to a comment, another one may stand in its place, if the walk comes to that one, too. The call
    ends in both texts or in none, and the two ends are as far behind the parts that were exchanged. -/
theorem callEnd?_replace {kind : CodeKind} {front part part' behind : Bytes} {trigger : Nat}
    (hpart : IsPassed kind part behind) (hpart' : IsPassed kind part' behind)
    (hreach : Reaches trigger (front ++ (part ++ behind)) front.length)
    (hreach' : Reaches trigger (front ++ (part' ++ behind)) front.length)
    (htrigger : trigger ≤ front.length) :
    Option.Rel (fun stop stop' => stop + part'.length = stop' + part.length)
      (callEnd? (front ++ (part ++ behind)) trigger)
      (callEnd? (front ++ (part' ++ behind)) trigger) := by
  apply callEnd?_replace_of_skips (Nat.add_comm _ _) (hpart.lookAlike hpart') _ _ hreach hreach' htrigger
  · exact hpart.skips
  · exact hpart'.skips

/-- A string with an escaped quote, parentheses and the marks of a comment, and another one without. -/
theorem callEnd?_replace_escaped :
    ∃ front part part' behind : Bytes, front = Bytes.ofString "f.Debug(" ∧
      part = Bytes.ofString "\"(\\\");//\"" ∧ part' = Bytes.ofString "\"a\"" ∧
      behind = Bytes.ofString ", (b)) ;" ∧
      IsPassed .literal part behind ∧ IsPassed .literal part' behind ∧
      Reaches 0 (front ++ (part ++ behind)) front.length ∧
      Reaches 0 (front ++ (part' ++ behind)) front.length ∧ 0 ≤ front.length ∧
      Option.Rel (fun stop stop' => stop + part'.length = stop' + part.length)
        (callEnd? (front ++ (part ++ behind)) 0) (callEnd? (front ++ (part' ++ behind)) 0) ∧
      callEnd? (front ++ (part ++ behind)) 0 = some 25 := by
  have hpart : IsPassed .literal (Bytes.ofString "\"(\\\");//\"") (Bytes.ofString ", (b)) ;") := by
    show IsPassed .literal (quote :: (Bytes.ofString "(\\\");//" ++ [quote])) _
    apply IsPassed.literal
    · decide
    · apply Bytes.IsUnits.single (by decide)
      apply Bytes.IsUnits.pair (by decide)
      exact Bytes.IsUnits.of_forall (by decide +kernel)
  have hpart' : IsPassed .literal (Bytes.ofString "\"a\"") (Bytes.ofString ", (b)) ;") := by
    show IsPassed .literal (quote :: (Bytes.ofString "a" ++ [quote])) _
    apply IsPassed.literal
    · decide
    · exact Bytes.IsUnits.of_forall (by decide +kernel)
  have hreach : Reaches 0 (Bytes.ofString "f.Debug(" ++ (Bytes.ofString "\"(\\\");//\""
      ++ Bytes.ofString ", (b)) ;")) 8 := ⟨⟨8, .literal, 9⟩, by decide +kernel, rfl⟩
  have hreach' : Reaches 0 (Bytes.ofString "f.Debug(" ++ (Bytes.ofString "\"a\""
      ++ Bytes.ofString ", (b)) ;")) 8 := ⟨⟨8, .literal, 3⟩, by decide +kernel, rfl⟩
  exact ⟨_, _, _, _, rfl, rfl, rfl, rfl, hpart, hpart', hreach, hreach', Nat.zero_le _,
    callEnd?_replace hpart hpart' hreach hreach' (Nat.zero_le _), by decide +kernel⟩

/-! ## Character literals -/

namespace Skips

variable {behind : Bytes}

/-- An apostrophe is skipped together with the literal that it starts. -/
theorem of_characterWidth {rest : Bytes}
    (hwidth : CodeItem.characterWidth (rest ++ behind) = rest.length + 1) :
    Skips (apostrophe :: rest) behind := by
  have hitem : CodeItem.first apostrophe (rest ++ behind) = ⟨.character, rest.length + 1⟩ := by
    rw [CodeItem.first_apostrophe, hwidth]
  apply of_first hitem
  · simp
  · simp

theorem of_lone (h : CodeItem.characterWidth behind = 1) : Skips [apostrophe] behind := by
  apply of_characterWidth
  exact h

/-- Bytes that are none of ASCII are skipped one by one. -/
theorem of_forall_le {part : Bytes} (h : ∀ b ∈ part, 0x80 ≤ b) : Skips part behind := by
  induction part with
  | nil =>
      intro trigger opened closed start
      rfl
  | cons b part ih =>
      have hb : 0x80 ≤ b := h b List.mem_cons_self
      have hne : ∀ mark : UInt8, mark < 0x80 → b ≠ mark := fun mark => ne_mark_of_le hb
      have hplain : CodeItem.first b (part ++ behind) = ⟨.plain b, 1⟩ := by
        have hsign : ¬ (b = quote ∨ b = atSign ∨ b = dollar) := by
          rintro (heq | heq | heq) <;> exact hne _ (by decide) heq
        rw [CodeItem.first, Literal.read?_eq_none hsign]
        dsimp only
        rw [if_neg (hne _ (by decide)), if_neg fun hslash => hne _ (by decide) hslash.1]
      have hhead : Skips [b] (part ++ behind) := by
        apply of_first hplain
        · simpa using hne openParen (by decide)
        · simpa using hne closeParen (by decide)
      exact hhead.append (ih fun c hc => h c (List.mem_cons_of_mem b hc))

/-- In front of a wide character an apostrophe is alone, and nothing counts up to the one behind it. -/
theorem of_wide {c : Char} (hwide : c.utf8Size ≠ 1) :
    Skips (apostrophe :: String.utf8EncodeChar c) behind := by
  have happostrophe : Skips [apostrophe] (String.utf8EncodeChar c ++ behind) :=
    of_lone (CodeItem.characterWidth_of_wide hwide behind)
  exact happostrophe.append (of_forall_le fun b => le_of_mem_utf8EncodeChar hwide)

/-- **A character between apostrophes is skipped**, if it has one byte, or if the apostrophe behind it does
    not start a character literal of its own. -/
theorem of_character {c : Char} (hc : IsPlainCharacter c)
    (h : c.utf8Size = 1 ∨ CodeItem.characterWidth behind = 1) :
    Skips (characterText c) behind := by
  by_cases hsize : c.utf8Size = 1
  · apply of_characterWidth
    rw [List.append_assoc, List.length_append, String.length_utf8EncodeChar, hsize]
    exact hc.characterWidth_eq hsize behind
  · have hlone : Skips [apostrophe] behind := of_lone (h.resolve_left hsize)
    exact (of_wide hsize).append hlone

end Skips

/-- **Characters between apostrophes do not count for the end of a call**, in two cases. If both of them have
    one byte, or both of them more, then they are read in the same way. And else it is enough that the
    apostrophe behind them does not start a character literal of its own, since behind a character of more
    than one byte it is taken to be the first one of a literal. -/
theorem callEnd?_character {c d : Char} {front behind : Bytes} {trigger : Nat}
    (hc : IsPlainCharacter c) (hd : IsPlainCharacter d)
    (hwidth : (c.utf8Size = 1 ↔ d.utf8Size = 1) ∨ CodeItem.characterWidth behind = 1)
    (hreach : Reaches trigger (front ++ (characterText c ++ behind)) front.length)
    (hreach' : Reaches trigger (front ++ (characterText d ++ behind)) front.length)
    (htrigger : trigger ≤ front.length) :
    Option.Rel (fun stop stop' => stop + d.utf8Size = stop' + c.utf8Size)
      (callEnd? (front ++ (characterText c ++ behind)) trigger)
      (callEnd? (front ++ (characterText d ++ behind)) trigger) := by
  by_cases hwide : c.utf8Size ≠ 1 ∧ d.utf8Size ≠ 1
  · -- The apostrophes behind the characters belong to the text that the two have in common.
    have hsplit : ∀ c, characterText c ++ behind
        = (apostrophe :: String.utf8EncodeChar c) ++ apostrophe :: behind := by
      intro c
      simp [characterText]
    rw [hsplit] at hreach hreach' ⊢
    rw [hsplit]
    apply callEnd?_replace_of_skips _ _ (.of_wide hwide.1) (.of_wide hwide.2) hreach hreach' htrigger
    · simp only [List.length_cons, String.length_utf8EncodeChar]
      omega
    · exact Bytes.lookAlike_cons (by decide) _ _
  · have hskip : ∀ e, IsPlainCharacter e → e = c ∨ e = d → Skips (characterText e) behind := by
      intro e he hcd
      apply Skips.of_character he
      rcases hwidth with hsame | hlone
      · left
        rcases hcd with rfl | rfl
        · by_contra hsize
          exact hwide ⟨hsize, mt hsame.mpr hsize⟩
        · by_contra hsize
          exact hwide ⟨mt hsame.mp hsize, hsize⟩
      · exact .inr hlone
    apply callEnd?_replace_of_skips _ _ (hskip c hc (.inl rfl)) (hskip d hd (.inr rfl)) hreach hreach'
      htrigger
    · rw [length_characterText, length_characterText]
      omega
    · exact Bytes.lookAlike_cons (by decide) _ _

/-- A parenthesis and a letter of two bytes between apostrophes. -/
theorem callEnd?_character_parenthesis :
    ∃ front behind : Bytes, front = Bytes.ofString "f.Debug(" ∧ behind = Bytes.ofString ", b);" ∧
      IsPlainCharacter '(' ∧ IsPlainCharacter 'é' ∧
      (('('.utf8Size = 1 ↔ 'é'.utf8Size = 1) ∨ CodeItem.characterWidth behind = 1) ∧
      Reaches 0 (front ++ (characterText '(' ++ behind)) front.length ∧
      Reaches 0 (front ++ (characterText 'é' ++ behind)) front.length ∧ 0 ≤ front.length ∧
      Option.Rel (fun stop stop' => stop + 'é'.utf8Size = stop' + '('.utf8Size)
        (callEnd? (front ++ (characterText '(' ++ behind)) 0)
        (callEnd? (front ++ (characterText 'é' ++ behind)) 0) ∧
      callEnd? (front ++ (characterText '(' ++ behind)) 0 = some 16 := by
  have hc : IsPlainCharacter '(' := by decide
  have hd : IsPlainCharacter 'é' := by decide
  have hlone : CodeItem.characterWidth (Bytes.ofString ", b);") = 1 := by decide +kernel
  have hreach : Reaches 0 (Bytes.ofString "f.Debug(" ++ (characterText '('
      ++ Bytes.ofString ", b);")) 8 := ⟨⟨8, .character, 3⟩, by decide +kernel, rfl⟩
  have hreach' : Reaches 0 (Bytes.ofString "f.Debug(" ++ (characterText 'é'
      ++ Bytes.ofString ", b);")) 8 := ⟨⟨8, .character, 1⟩, by decide +kernel, rfl⟩
  exact ⟨_, _, rfl, rfl, hc, hd, .inr hlone, hreach, hreach', Nat.zero_le _,
    callEnd?_character hc hd (.inr hlone) hreach hreach' (Nat.zero_le _), by decide +kernel⟩

/-- **A letter of two bytes between apostrophes can hide the end of a call.** The apostrophe behind it is
    taken for the first one of a literal that ends where the next literal starts, and so the parenthesis in
    that one counts. -/
theorem callEnd?_character_wide :
    ∃ front behind : Bytes, front = Bytes.ofString "f.Debug(" ∧
      behind = Bytes.ofString ",'('); g();" ∧ IsPlainCharacter 'x' ∧ IsPlainCharacter 'é' ∧
      Reaches 0 (front ++ (characterText 'x' ++ behind)) front.length ∧
      Reaches 0 (front ++ (characterText 'é' ++ behind)) front.length ∧
      callEnd? (front ++ (characterText 'x' ++ behind)) 0 = some 17 ∧
      callEnd? (front ++ (characterText 'é' ++ behind)) 0 = none := by
  have hc : IsPlainCharacter 'x' := by decide
  have hd : IsPlainCharacter 'é' := by decide
  have hreach : Reaches 0 (Bytes.ofString "f.Debug(" ++ (characterText 'x'
      ++ Bytes.ofString ",'('); g();")) 8 := ⟨⟨8, .character, 3⟩, by decide +kernel, rfl⟩
  have hreach' : Reaches 0 (Bytes.ofString "f.Debug(" ++ (characterText 'é'
      ++ Bytes.ofString ",'('); g();")) 8 := ⟨⟨8, .character, 1⟩, by decide +kernel, rfl⟩
  exact ⟨_, _, rfl, rfl, hc, hd, hreach, hreach', by decide +kernel, by decide +kernel⟩

end LogMarkup
