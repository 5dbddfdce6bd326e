import TableStore.Proofs.Sql.Sentences

/-!
# The first token that fits

The rules go through the tokens with one token of foresight and never go back. So a reading that
fails has found the earliest token that is to blame: what stands in front of it can go on to a
statement, and with this token behind it, it cannot.

What is said about a whole statement cannot be said about one rule, because a rule that has ended does
not know what comes next. A rule therefore *leads* if it puts no obstacle in the way of what follows
it: any continuation that can be completed can still be completed behind the rule, and a fault is found
in time if the continuation finds its own faults in time. No place of the grammar asks for a comma and
nothing else, and that is why a list can be ended everywhere.

* `Sql.Rule.Accepts`, `Sql.Rule.Misfit`, `Sql.Rule.Prompt` — what a rule accepts, where it cannot go on,
  and that it notices at once.
* `Sql.Rule.Leads` — the property that rules hand on to each other; `Sql.Rule.leads_bind`,
  `Sql.Rule.leads_looksAt` and `Sql.Rule.leads_commaSeparated` are how they do it.
* `Sql.Rule.prompt_statement` — the grammar as a whole.
* `Sql.Statement.ofTokens_error_earliest` — the same, said with positions.
-/

namespace TableStore.Sql

namespace Rule

variable {α β : Type}

/-- A rule makes something of tokens; it may leave some of them. -/
def Accepts (rule : Rule α) (tokens : List Token) : Prop :=
  ∃ x rest, rule.run tokens = .ok x rest

/-- A rule that has read `read` cannot go on in `after`: there are tokens with which it could, but none
that start with the next one. The next token is left or taken along. -/
structure Misfit (rule : Rule α) (read after rest : List Token) : Prop where
  viable : ∃ more, rule.Accepts (read ++ more)
  dead : ∀ token ∈ after.head?, ∀ more, ¬rule.Accepts (read ++ token :: more)
  left : rest = after ∨ rest = after.tail

/-- If a rule fails on tokens, then it does so at the first token with which it cannot go on. -/
def Prompt (rule : Rule α) (tokens : List Token) : Prop :=
  ∀ cause rest, rule.run tokens = .error cause rest →
    ∃ read after, tokens = read ++ after ∧ rule.Misfit read after rest

/-- A rule accepts some tokens that do not start with a comma. -/
def Possible (rule : Rule α) : Prop :=
  ∃ tokens, NotAt (.anyOf .comma) tokens ∧ rule.Accepts tokens

/-- A rule reads forwards, and whatever comes behind it is as possible and as prompt as before. -/
structure Leads (rule : Rule α) : Prop where
  suffix : ∀ {tokens rest x}, rule.run tokens = .ok x rest → rest <:+ tokens
  possible : ∀ {β : Type} {next : α → Rule β}, (∀ x, Possible (next x)) → Possible (rule >>= next)
  prompt : ∀ {β : Type} {next : α → Rule β} {tokens}, (∀ x, Possible (next x)) →
    (∀ x middle, rule.run tokens = .ok x middle → Prompt (next x) middle) →
    Prompt (rule >>= next) tokens

/-! ## Rules in a row -/

section

variable {rule : Rule α} {next : α → Rule β} {tokens middle rest : List Token} {x : α}

theorem run_bind_ok (h : rule.run tokens = .ok x middle) :
    (rule >>= next).run tokens = (next x).run middle := by
  show EStateM.bind rule next tokens = _
  unfold EStateM.bind
  rw [show rule tokens = .ok x middle from h]
  rfl

theorem run_bind_error {cause : SyntaxError} (h : rule.run tokens = .error cause rest) :
    (rule >>= next).run tokens = .error cause rest := by
  show EStateM.bind rule next tokens = _
  unfold EStateM.bind
  rw [show rule tokens = .error cause rest from h]

/-- What comes of two rules in a row depends on the second one only where the first one ends. -/
theorem run_bind_congr_right {other : α → Rule β}
    (h : ∀ x middle, rule.run tokens = .ok x middle → (next x).run middle = (other x).run middle) :
    (rule >>= next).run tokens = (rule >>= other).run tokens := by
  cases hrule : rule.run tokens with
  | ok x middle => rw [run_bind_ok hrule, run_bind_ok hrule, h x middle hrule]
  | error cause rest => rw [run_bind_error hrule, run_bind_error hrule]

/-- What comes of two rules in a row depends on the first one only by what comes of it. -/
theorem run_bind_congr {other : Rule α} (h : rule.run tokens = other.run tokens) :
    (rule >>= next).run tokens = (other >>= next).run tokens := by
  show EStateM.bind rule next tokens = EStateM.bind other next tokens
  unfold EStateM.bind
  rw [show rule tokens = other tokens from h]

end

/-! ## Prompt rules -/

section

variable {whole part : Rule α} {token : Token} {tokens : List Token}

/-- A rule that refuses whatever starts with the next token has found the fault there. -/
theorem prompt_of_refused (hpossible : Possible whole)
    (hrefused : ∀ token ∈ tokens.head?, ∀ more, ¬whole.Accepts (token :: more))
    (hleft : ∀ {cause rest}, whole.run tokens = .error cause rest → rest = tokens ∨ rest = tokens.tail) :
    Prompt whole tokens := by
  intro cause rest hrun
  obtain ⟨others, -, hothers⟩ := hpossible
  exact ⟨[], tokens, rfl, ⟨others, hothers⟩, hrefused, hleft hrun⟩

/-- A rule that lets another one do the work as soon as it has seen the next token. -/
theorem prompt_of_head (hpossible : Possible whole)
    (hsame : ∀ others, others.head? = tokens.head? → whole.run others = part.run others)
    (h : Prompt part tokens) : Prompt whole tokens := by
  intro cause rest hrun
  rw [hsame tokens rfl] at hrun
  obtain ⟨read, after, rfl, hviable, hdead, hleft⟩ := h cause rest hrun
  refine ⟨read, after, rfl, ?_, ?_, hleft⟩
  · -- before anything is read, the whole rule may complete the tokens in its own way
    cases read with
    | nil =>
      obtain ⟨others, -, hothers⟩ := hpossible
      exact ⟨others, hothers⟩
    | cons token read =>
      obtain ⟨more, x, last, hmore⟩ := hviable
      exact ⟨more, x, last, (hsame (token :: (read ++ more)) rfl).trans hmore⟩
  · rintro token htoken more ⟨x, last, hrun⟩
    refine hdead token htoken more ⟨x, last, (hsame _ ?_).symm.trans hrun⟩
    cases read with
    | nil => exact htoken.symm
    | cons => rfl

/-- A rule that lets another one go on behind the next token. -/
theorem prompt_cons (hsame : ∀ others, whole.run (token :: others) = part.run others)
    (h : Prompt part tokens) : Prompt whole (token :: tokens) := by
  intro cause rest hrun
  rw [hsame] at hrun
  obtain ⟨read, after, rfl, ⟨more, x, last, hmore⟩, hdead, hleft⟩ := h cause rest hrun
  refine ⟨token :: read, after, rfl, ⟨more, x, last, (hsame _).trans hmore⟩, ?_, hleft⟩
  rintro token' htoken' more' ⟨x', last', hrun'⟩
  exact hdead token' htoken' more' ⟨x', last', (hsame _).symm.trans hrun'⟩

end

/-! ## Rules that lead -/

theorem leads_pure (x : α) : Leads (pure x : Rule α) where
  suffix h := by
    obtain ⟨-, rfl⟩ := run_pure_iff.mp h
    exact List.suffix_refl _
  possible h := by
    rw [pure_bind]
    exact h x
  prompt _ h := by
    rw [pure_bind]
    exact h x _ rfl

theorem leads_bind {rule : Rule α} {next : α → Rule β} (h : Leads rule) (hnext : ∀ x, Leads (next x)) :
    Leads (rule >>= next) where
  suffix hrun := by
    obtain ⟨x, middle, hrule, hrun⟩ := run_bind_iff.mp hrun
    exact ((hnext x).suffix hrun).trans (h.suffix hrule)
  possible hlast := by
    rw [bind_assoc]
    exact h.possible fun x => (hnext x).possible hlast
  prompt hlast hprompt := by
    rw [bind_assoc]
    refine h.prompt (fun x => (hnext x).possible hlast) fun x middle hrule => ?_
    refine (hnext x).prompt hlast fun y last hrun => ?_
    exact hprompt y last (run_bind_iff.mpr ⟨x, middle, hrule, hrun⟩)

/-- A rule reads one token, which tells what the rule makes of it. A token that is refused is left or
taken along. -/
structure Single (rule : Rule α) (stands : Token → α → Prop) : Prop where
  run_iff : ∀ {tokens rest x},
    rule.run tokens = .ok x rest ↔ ∃ token, tokens = token :: rest ∧ stands token x
  left : ∀ {tokens cause rest},
    rule.run tokens = .error cause rest → rest = tokens ∨ rest = tokens.tail

/-- A rule of one token leads if there is a token for it, and not only a comma. -/
theorem Single.leads {rule : Rule α} {stands : Token → α → Prop} (h : Single rule stands)
    (token : Token) (x : α) (hstands : stands token x) (hcomma : token.kind ≠ .comma) :
    Leads rule := by
  have hpossible : ∀ {β : Type} {next : α → Rule β}, (∀ x, Possible (next x)) →
      Possible (rule >>= next) := by
    intro β next hnext
    obtain ⟨others, -, y, rest, hothers⟩ := hnext x
    have hrule : rule.run (token :: others) = .ok x others := h.run_iff.mpr ⟨token, rfl, hstands⟩
    refine ⟨token :: others, beq_false_of_ne hcomma, y, rest, ?_⟩
    rw [run_bind_ok hrule, hothers]
  refine ⟨fun hrun => ?_, hpossible, fun {β next tokens} hnext hprompt => ?_⟩
  · obtain ⟨first, rfl, -⟩ := h.run_iff.mp hrun
    exact List.suffix_cons first _
  · cases hrule : rule.run tokens with
    | ok y middle =>
      -- the token is read, and the fault is left to what follows the rule
      obtain ⟨first, rfl, hfirst⟩ := h.run_iff.mp hrule
      refine prompt_cons (fun others => ?_) (hprompt y middle hrule)
      exact run_bind_ok (h.run_iff.mpr ⟨first, rfl, hfirst⟩)
    | error cause rest =>
      refine prompt_of_refused (hpossible hnext) ?_ fun hrun => ?_
      · -- the token does not stand for anything, whatever follows it
        rintro first hfirst more ⟨y, last, hrun⟩
        obtain ⟨z, middle, hread, -⟩ := run_bind_iff.mp hrun
        obtain ⟨first', heq, hstands'⟩ := h.run_iff.mp hread
        obtain ⟨rfl, rfl⟩ := List.cons.inj heq
        obtain ⟨others, rfl⟩ := List.head?_eq_some_iff.mp hfirst
        have hok : rule.run (first :: others) = .ok z others := h.run_iff.mpr ⟨first, rfl, hstands'⟩
        rw [hrule] at hok
        cases hok
      · rw [run_bind_error hrule] at hrun
        cases hrun
        exact h.left hrule

/-- A rule that looks at the next token decides once and for all how it goes on. -/
theorem run_looksAt_bind (place : Terminal) (yes no : Rule α) (next : α → Rule β)
    (tokens : List Token) :
    ((do if ← looksAt place then yes else no) >>= next).run tokens =
      if tokens.head?.any place.admits then (yes >>= next).run tokens
      else (no >>= next).run tokens := by
  split
  · rename_i h
    exact run_bind_congr ((run_looksAt place yes no tokens).trans (if_pos h))
  · rename_i h
    exact run_bind_congr ((run_looksAt place yes no tokens).trans (if_neg h))

theorem leads_looksAt {place : Terminal} {yes no : Rule α} (hyes : Leads yes) (hno : Leads no)
    (hpossible : ∀ {β : Type} {next : α → Rule β}, (∀ x, Possible (next x)) →
      Possible ((do if ← looksAt place then yes else no) >>= next)) :
    Leads (do if ← looksAt place then yes else no) where
  suffix hrun := by
    rw [run_looksAt] at hrun
    split at hrun
    · exact hyes.suffix hrun
    · exact hno.suffix hrun
  possible := hpossible
  prompt {β next tokens} hnext hprompt := by
    -- tokens with the same head go the same way
    by_cases hhead : tokens.head?.any place.admits = true
    · have hrun := fun x middle h =>
        hprompt x middle ((run_looksAt place yes no tokens).trans ((if_pos hhead).trans h))
      refine prompt_of_head (hpossible hnext) (fun others hothers => ?_) (hyes.prompt hnext hrun)
      rw [run_looksAt_bind, hothers, if_pos hhead]
    · have hrun := fun x middle h =>
        hprompt x middle ((run_looksAt place yes no tokens).trans ((if_neg hhead).trans h))
      refine prompt_of_head (hpossible hnext) (fun others hothers => ?_) (hno.prompt hnext hrun)
      rw [run_looksAt_bind, hothers, if_neg hhead]

/-! ## Single tokens -/

section

variable {tokens rest : List Token} {cause : SyntaxError}

theorem single_expect (place : Terminal) :
    Single (expect place) fun token x => x = token ∧ place.admits token = true where
  run_iff {tokens rest x} := by
    rw [run_expect_iff]
    constructor
    · rintro ⟨rfl, hadmits⟩
      exact ⟨x, rfl, rfl, hadmits⟩
    · rintro ⟨token, rfl, rfl, hadmits⟩
      exact ⟨rfl, hadmits⟩
  left {tokens cause rest} h := by
    cases tokens with
    | nil =>
      cases h
      exact .inl rfl
    | cons token others =>
      have hrun : (expect place).run (token :: others) =
          if place.admits token then .ok token others
          else .error (.expected place (some token)) (token :: others) := by
        show (if place.admits token then _ else _ : Rule Token) (token :: others) = _
        split <;> rfl
      rw [hrun] at h
      split at h
      · cases h
      · cases h
        exact .inl rfl

theorem single_take : Single take fun token x => x = token where
  run_iff {tokens rest x} := by
    rw [run_take_iff]
    exact ⟨fun h => ⟨x, h, rfl⟩, fun ⟨_, h, hx⟩ => hx ▸ h⟩
  left {tokens cause rest} h := by
    cases tokens with
    | nil =>
      cases h
      exact .inl rfl
    | cons token others => cases h

/-- A token that is there is taken. -/
theorem run_discard_take (token : Token) (tokens : List Token) :
    (discard take : Rule PUnit).run (token :: tokens) = .ok ⟨⟩ tokens :=
  rfl

theorem Single.discard {rule : Rule α} {stands : Token → α → Prop} (h : Single rule stands) :
    Single (discard rule : Rule PUnit) fun token _ => ∃ x, stands token x where
  run_iff {tokens rest u} := by
    rw [run_discard_iff]
    constructor
    · rintro ⟨x, hrun⟩
      obtain ⟨token, rfl, hstands⟩ := h.run_iff.mp hrun
      exact ⟨token, rfl, x, hstands⟩
    · rintro ⟨token, rfl, x, hstands⟩
      exact ⟨x, h.run_iff.mpr ⟨token, rfl, hstands⟩⟩
  left {tokens cause rest} hrun := by
    change EStateM.map _ rule tokens = _ at hrun
    unfold EStateM.map at hrun
    cases hrule : rule tokens with
    | ok x middle =>
      rw [hrule] at hrun
      cases hrun
    | error cause' rest' =>
      rw [hrule] at hrun
      cases hrun
      exact h.left hrule

/-- What decides about a token that has been read takes no further one. -/
theorem Single.left_bind {rule : Rule α} {stands : Token → α → Prop} (h : Single rule stands)
    {next : α → Rule β}
    (hkeeps : ∀ x {tokens cause rest}, (next x).run tokens = .error cause rest → rest = tokens)
    (hrun : (rule >>= next).run tokens = .error cause rest) : rest = tokens ∨ rest = tokens.tail := by
  cases hrule : rule.run tokens with
  | ok x middle =>
    obtain ⟨token, rfl, -⟩ := h.run_iff.mp hrule
    rw [run_bind_ok hrule] at hrun
    exact .inr (hkeeps x hrun)
  | error cause' rest' =>
    rw [run_bind_error hrule] at hrun
    cases hrun
    exact h.left hrule

theorem single_identifier :
    Single identifier fun token name => token = ⟨.identifier, name⟩ where
  run_iff := by simp [run_identifier_iff]
  left h := by
    refine (single_expect _).left_bind (fun token {tokens cause rest} hrun => ?_) h
    cases hrun

theorem single_columnType :
    Single columnType fun token type => token = ⟨.keyword, type.keyword⟩ where
  run_iff := by simp [run_columnType_iff]
  left h := by
    refine (single_expect _).left_bind (fun token {tokens cause rest} hrun => ?_) h
    split at hrun
    · cases hrun
    · cases hrun
      rfl

theorem single_comparison :
    Single comparison fun token op => token = ⟨.operator, op.symbol⟩ where
  run_iff := by simp [run_comparison_iff]
  left h := by
    refine (single_expect _).left_bind (fun token {tokens cause rest} hrun => ?_) h
    split at hrun
    · cases hrun
    · cases hrun
      rfl

theorem single_literal : Single literal Denotes where
  run_iff := run_literal_iff
  left h := by
    refine single_take.left_bind (fun token {tokens cause rest} hrun => ?_) h
    split at hrun
    · cases hrun
    · split at hrun
      · cases hrun
      · cases hrun
        rfl
    · split at hrun
      · cases hrun
      · split at hrun
        · cases hrun
        · cases hrun
          rfl
    · cases hrun
      rfl

theorem leads_word (keyword : String) : Leads (word keyword) :=
  (single_expect _).discard.leads ⟨.keyword, keyword⟩ () ⟨_, rfl, beq_self_eq_true _⟩ nofun

theorem leads_mark {kind : Token.Kind} (hcomma : kind ≠ .comma) : Leads (mark kind) :=
  (single_expect _).discard.leads ⟨kind, ""⟩ () ⟨_, rfl, beq_self_eq_true _⟩ hcomma

theorem leads_equals : Leads (discard (expect .equals) : Rule PUnit) :=
  (single_expect _).discard.leads ⟨.operator, "="⟩ ⟨⟩ ⟨_, rfl, beq_self_eq_true _⟩ nofun

theorem leads_identifier : Leads identifier :=
  single_identifier.leads _ "" rfl nofun

theorem leads_columnType : Leads columnType :=
  single_columnType.leads _ .integer rfl nofun

theorem leads_comparison : Leads comparison :=
  single_comparison.leads _ .equal rfl nofun

theorem leads_literal : Leads literal :=
  single_literal.leads _ _ .yes nofun

/-- A part that may be left out is told by its first token, which is no comma. -/
theorem leads_optional {place : Terminal} (token : Token) (hadmits : place.admits token = true)
    (hcomma : token.kind ≠ .comma) {yes no : Rule α} (hyes : Leads yes) (hno : Leads no) :
    Leads (do
      if ← looksAt place then
        discard take
        yes
      else no) := by
  have htake : Leads (discard take : Rule PUnit) :=
    single_take.discard.leads token ⟨⟩ ⟨token, rfl⟩ hcomma
  refine leads_looksAt (leads_bind htake fun _ => hyes) hno fun {β next} hnext => ?_
  -- it can be there
  obtain ⟨others, -, x, rest, hothers⟩ := hyes.possible hnext
  refine ⟨token :: others, beq_false_of_ne hcomma, x, rest, ?_⟩
  rw [run_looksAt_bind, if_pos (show (token :: others).head?.any place.admits = true from hadmits)]
  exact hothers

end

/-! ## Lists -/

/-- What `item` reads, as often as a comma stands in front of it. -/
def moreItems (item : Rule α) : Rule (List α) := do
  afterCommas item (← get).length

section

variable {item : Rule α} {tokens : List Token}

/-- The bound of the loop does not matter, for no round of it lengthens the tokens. -/
theorem run_afterCommas_congr (h : Leads item) {n m : Nat} (hn : tokens.length ≤ n)
    (hm : tokens.length ≤ m) :
    (afterCommas item n).run tokens = (afterCommas item m).run tokens := by
  have hend : NotAt (.anyOf .comma) [] := rfl
  induction n generalizing tokens m with
  | zero =>
    obtain rfl : tokens = [] := List.length_eq_zero_iff.mp (by omega)
    exact (run_afterCommas_of_notAt hend m).symm
  | succ n ih =>
    cases tokens with
    | nil => rw [run_afterCommas_of_notAt hend, run_afterCommas_of_notAt hend]
    | cons token others =>
      obtain ⟨m, rfl⟩ : ∃ k, m = k + 1 := ⟨m - 1, by simp only [List.length_cons] at hm; omega⟩
      simp only [List.length_cons] at hn hm
      unfold afterCommas
      rw [run_looksAt, run_looksAt]
      split
      · -- both loops take the comma, and what the item leaves is short enough for both
        rw [run_bind_ok (run_discard_take _ _), run_bind_ok (run_discard_take _ _)]
        refine run_bind_congr_right fun x middle hitem => ?_
        have hshort := (h.suffix hitem).length_le
        exact run_bind_congr (ih (by omega) (by omega))
      · rfl

/-- A list goes on with a comma and an item, or ends. -/
theorem run_moreItems (h : Leads item) (tokens : List Token) :
    (moreItems item).run tokens =
      if tokens.head?.any (Terminal.anyOf .comma).admits then
        (do discard take; let x ← item; return x :: (← moreItems item) : Rule (List α)).run tokens
      else (pure [] : Rule (List α)).run tokens := by
  cases tokens with
  | nil => rfl
  | cons token others =>
    show (afterCommas item (others.length + 1)).run (token :: others) = _
    rw [afterCommas, run_looksAt]
    split
    · -- the bound is one less, and there are as many tokens less as the item takes
      rw [run_bind_ok (run_discard_take _ _), run_bind_ok (run_discard_take _ _)]
      refine run_bind_congr_right fun x middle hitem => ?_
      have hshort := (h.suffix hitem).length_le
      exact run_bind_congr (run_afterCommas_congr h hshort (Nat.le_refl _))
    · rfl

theorem suffix_of_run_moreItems (h : Leads item) {rest : List Token} {xs : List α}
    (hrun : (moreItems item).run tokens = .ok xs rest) : rest <:+ tokens := by
  -- by induction on the bound of the loop, whatever the tokens are
  change (afterCommas item tokens.length).run tokens = _ at hrun
  generalize tokens.length = bound at hrun
  induction bound generalizing tokens xs with
  | zero =>
    cases hrun
    exact List.suffix_refl _
  | succ bound ih =>
    unfold afterCommas at hrun
    rw [run_looksAt] at hrun
    split at hrun
    · simp only [run_bind_iff, run_discard_iff, run_take_iff, run_pure_iff] at hrun
      obtain ⟨-, others, ⟨token, rfl⟩, x, middle, hitem, xs, last, hmore, rfl, rfl⟩ := hrun
      exact ((ih hmore).trans (h.suffix hitem)).trans (List.suffix_cons token others)
    · obtain ⟨-, rfl⟩ := run_pure_iff.mp hrun
      exact List.suffix_refl _

/-- A list may end before anything but a comma. -/
theorem possible_moreItems (h : Leads item) {next : List α → Rule β}
    (hnext : ∀ xs, Possible (next xs)) : Possible (moreItems item >>= next) := by
  obtain ⟨others, hcomma, x, rest, hothers⟩ := hnext []
  refine ⟨others, hcomma, x, rest, ?_⟩
  have hend : (moreItems item).run others = .ok [] others := by
    rw [run_moreItems h, show others.head?.any (Terminal.anyOf .comma).admits = false from hcomma]
    rfl
  rw [run_bind_ok hend, hothers]

theorem prompt_moreItems (h : Leads item) {next : List α → Rule β}
    (hnext : ∀ xs, Possible (next xs))
    (hprompt : ∀ xs middle, (moreItems item).run tokens = .ok xs middle → Prompt (next xs) middle) :
    Prompt (moreItems item >>= next) tokens := by
  -- by induction on a bound for the tokens, of which every round takes a comma
  induction hbound : tokens.length using Nat.strongRecOn generalizing tokens next with
  | ind n ih =>
    subst hbound
    have hpossible := possible_moreItems h hnext
    by_cases hhead : tokens.head?.any (Terminal.anyOf .comma).admits = true
    · obtain ⟨token, others, rfl⟩ : ∃ token others, tokens = token :: others := by
        cases tokens with
        | nil => cases hhead
        | cons token others => exact ⟨token, others, rfl⟩
      -- behind the comma stands an item, and behind the item the list goes on
      have hround : ∀ after, (moreItems item >>= next).run (token :: after) =
          (item >>= fun x => moreItems item >>= fun xs => next (x :: xs)).run after := by
        intro after
        rw [run_bind_congr ((run_moreItems h (token :: after)).trans (if_pos hhead)), bind_assoc,
          run_bind_ok (run_discard_take _ _)]
        simp only [bind_assoc, pure_bind]
      refine prompt_cons hround (h.prompt (fun x => ?_) fun x middle hitem => ?_)
      · exact possible_moreItems h fun xs => hnext (x :: xs)
      · have hshort := (h.suffix hitem).length_le
        refine ih middle.length (by simp only [List.length_cons]; omega)
          (fun xs => hnext (x :: xs)) (fun xs last hmore => ?_) rfl
        refine hprompt (x :: xs) last ?_
        rw [run_moreItems h, if_pos hhead, run_bind_ok (run_discard_take _ _), run_bind_ok hitem,
          run_bind_ok hmore]
        rfl
    · -- the list ends, so a fault is found by what follows the list
      have hend : ∀ others : List Token, others.head? = tokens.head? →
          (moreItems item).run others = .ok [] others := by
        intro others hothers
        rw [run_moreItems h, hothers, if_neg hhead]
        rfl
      refine prompt_of_head hpossible (fun others hothers => run_bind_ok (hend others hothers)) ?_
      exact hprompt [] tokens (hend tokens rfl)

theorem leads_commaSeparated (h : Leads item) : Leads (commaSeparated item) := by
  have hmore : Leads (moreItems item) :=
    ⟨suffix_of_run_moreItems h, possible_moreItems h, prompt_moreItems h⟩
  have heq : commaSeparated item = (do let x ← item; return x :: (← moreItems item)) := by
    simp only [commaSeparated, moreItems, bind_assoc]
  rw [heq]
  exact leads_bind h fun x => leads_bind hmore fun xs => leads_pure _

theorem leads_parenthesised (h : Leads item) : Leads (parenthesised item) := by
  refine leads_bind (leads_mark nofun) fun _ => ?_
  refine leads_bind h fun x => ?_
  refine leads_bind (leads_mark nofun) fun _ => ?_
  exact leads_pure x

end

/-! ## Parts of statements -/

theorem leads_reference : Leads reference := by
  refine leads_bind leads_identifier fun first => ?_
  refine leads_optional ⟨.dot, "."⟩ rfl nofun ?_ (leads_pure first)
  refine leads_bind leads_identifier fun second => ?_
  exact leads_pure _

theorem leads_condition : Leads condition := by
  refine leads_optional ⟨.keyword, "WHERE"⟩ rfl nofun ?_ (leads_pure Predicate.always)
  refine leads_bind leads_identifier fun column => ?_
  refine leads_bind leads_comparison fun op => ?_
  refine leads_bind leads_literal fun value => ?_
  exact leads_pure _

theorem leads_declaration : Leads declaration := by
  refine leads_bind leads_identifier fun name => ?_
  refine leads_bind leads_columnType fun type => ?_
  refine leads_optional ⟨.keyword, "PRIMARY"⟩ rfl nofun ?_ (leads_pure _)
  refine leads_bind (leads_word "KEY") fun _ => ?_
  exact leads_pure _

theorem leads_names : Leads (commaSeparated identifier) :=
  leads_commaSeparated leads_identifier

theorem leads_projection : Leads projection := by
  refine leads_optional ⟨.asterisk, "*"⟩ rfl nofun (leads_pure Projection.all) ?_
  refine leads_bind leads_names fun names => ?_
  exact leads_pure _

theorem leads_join : Leads join := by
  refine leads_optional ⟨.keyword, "INNER"⟩ rfl nofun ?_ (leads_pure none)
  refine leads_bind (leads_word "JOIN") fun _ => ?_
  refine leads_bind leads_identifier fun table => ?_
  refine leads_bind (leads_word "ON") fun _ => ?_
  refine leads_bind leads_reference fun left => ?_
  refine leads_bind leads_equals fun _ => ?_
  refine leads_bind leads_reference fun right => ?_
  exact leads_pure _

theorem leads_assignment : Leads assignment := by
  refine leads_bind leads_identifier fun column => ?_
  refine leads_bind leads_equals fun _ => ?_
  refine leads_bind leads_literal fun value => ?_
  exact leads_pure _

theorem leads_insertColumns : Leads insertColumns := by
  have hcolumns : Leads (do return some (← parenthesised (commaSeparated identifier))) :=
    leads_bind (leads_parenthesised leads_names) fun names => leads_pure _
  refine leads_looksAt hcolumns (leads_pure none) fun {β next} hnext => ?_
  -- a list of columns can be there, and if it is, it starts with the parenthesis
  obtain ⟨tokens, hcomma, x, rest, hrun⟩ := hcolumns.possible hnext
  refine ⟨tokens, hcomma, x, rest, ?_⟩
  have hparen : tokens.head?.any (Terminal.anyOf .leftParen).admits = true := by
    obtain ⟨columns, middle, hread, -⟩ := run_bind_iff.mp hrun
    obtain ⟨names, middle', hread, -⟩ := run_bind_iff.mp hread
    obtain ⟨u, others, hmark, -⟩ := run_bind_iff.mp hread
    obtain ⟨text, rfl⟩ := run_mark_iff.mp hmark
    rfl
  rw [run_looksAt_bind, if_pos hparen]
  exact hrun

/-! ## Statements -/

theorem leads_createTable : Leads createTable := by
  refine leads_bind (leads_word "CREATE") fun _ => ?_
  refine leads_bind (leads_word "TABLE") fun _ => ?_
  refine leads_bind leads_identifier fun table => ?_
  refine leads_bind (leads_parenthesised (leads_commaSeparated leads_declaration)) fun columns => ?_
  exact leads_pure _

theorem leads_dropTable : Leads dropTable := by
  refine leads_bind (leads_word "DROP") fun _ => ?_
  refine leads_bind (leads_word "TABLE") fun _ => ?_
  refine leads_bind leads_identifier fun table => ?_
  exact leads_pure _

theorem leads_insert : Leads insert := by
  have htuple : Leads (parenthesised (commaSeparated literal)) :=
    leads_parenthesised (leads_commaSeparated leads_literal)
  refine leads_bind (leads_word "INSERT") fun _ => ?_
  refine leads_bind (leads_word "INTO") fun _ => ?_
  refine leads_bind leads_identifier fun table => ?_
  refine leads_bind leads_insertColumns fun columns => ?_
  refine leads_bind (leads_word "VALUES") fun _ => ?_
  refine leads_bind (leads_commaSeparated htuple) fun tuples => ?_
  exact leads_pure _

theorem leads_select : Leads select := by
  refine leads_bind (leads_word "SELECT") fun _ => ?_
  refine leads_bind leads_projection fun columns => ?_
  refine leads_bind (leads_word "FROM") fun _ => ?_
  refine leads_bind leads_identifier fun table => ?_
  refine leads_bind leads_join fun second => ?_
  refine leads_bind leads_condition fun restriction => ?_
  exact leads_pure _

theorem leads_update : Leads update := by
  refine leads_bind (leads_word "UPDATE") fun _ => ?_
  refine leads_bind leads_identifier fun table => ?_
  refine leads_bind (leads_word "SET") fun _ => ?_
  refine leads_bind (leads_commaSeparated leads_assignment) fun assignments => ?_
  refine leads_bind leads_condition fun restriction => ?_
  exact leads_pure _

theorem leads_delete : Leads delete := by
  refine leads_bind (leads_word "DELETE") fun _ => ?_
  refine leads_bind (leads_word "FROM") fun _ => ?_
  refine leads_bind leads_identifier fun table => ?_
  refine leads_bind leads_condition fun restriction => ?_
  exact leads_pure _

/-- The rule of every keyword leads. -/
theorem leads_of_ofKeyword? {keyword : String} {rule : Rule Statement}
    (h : ofKeyword? keyword = some rule) : Leads rule := by
  rcases ofKeyword?_eq_some h with rfl | rfl | rfl | rfl | rfl | rfl
  · exact leads_createTable
  · exact leads_dropTable
  · exact leads_insert
  · exact leads_select
  · exact leads_update
  · exact leads_delete

/-- The next token chooses a rule that leads, or it is refused and left. -/
theorem run_body_of_head (tokens : List Token) :
    (∃ rule, Leads rule ∧
        ∀ others, others.head? = tokens.head? → body.run others = rule.run others) ∨
      ∀ others, others.head? = tokens.head? → ∃ cause, body.run others = .error cause others := by
  cases tokens with
  | nil =>
    refine .inr fun others hothers => ?_
    rw [List.head?_nil, List.head?_eq_none_iff] at hothers
    rw [hothers]
    exact ⟨_, rfl⟩
  | cons first rest =>
    -- the other tokens start with the same one
    have hfirst : ∀ {p : List Token → Prop}, (∀ after, p (first :: after)) →
        ∀ others, others.head? = (first :: rest).head? → p others := by
      intro p hp others hothers
      obtain ⟨after, rfl⟩ := List.head?_eq_some_iff.mp hothers
      exact hp after
    obtain ⟨kind, keyword⟩ := first
    by_cases hkind : kind = .keyword
    · subst hkind
      cases hrule : ofKeyword? keyword with
      | none =>
        refine .inr (hfirst fun after => ?_)
        rw [run_body_cons, hrule]
        exact ⟨_, rfl⟩
      | some rule =>
        refine .inl ⟨rule, leads_of_ofKeyword? hrule, hfirst fun after => ?_⟩
        rw [run_body_cons, hrule]
    · exact .inr (hfirst fun after => ⟨_, run_body_of_kind_ne hkind after⟩)

theorem leads_body : Leads body := by
  have hpossible : ∀ {β : Type} {next : Statement → Rule β}, (∀ x, Possible (next x)) →
      Possible (body >>= next) := by
    intro β next hnext
    -- the shortest statement will do
    obtain ⟨others, -, x, rest, hothers⟩ := hnext (.dropTable "t")
    refine ⟨⟨.keyword, "DROP"⟩ :: ⟨.keyword, "TABLE"⟩ :: ⟨.identifier, "t"⟩ :: others, rfl, x, rest, ?_⟩
    rw [← hothers]
    exact run_bind_ok rfl
  refine ⟨fun {tokens rest statement} hrun => ?_, hpossible, fun {β next tokens} hnext hprompt => ?_⟩
  · rcases run_body_of_head tokens with ⟨rule, hleads, hsame⟩ | hrefused
    · exact hleads.suffix ((hsame tokens rfl).symm.trans hrun)
    · obtain ⟨cause, herror⟩ := hrefused tokens rfl
      cases herror.symm.trans hrun
  · rcases run_body_of_head tokens with ⟨rule, hleads, hsame⟩ | hrefused
    · refine prompt_of_head (hpossible hnext)
        (fun others hothers => run_bind_congr (hsame others hothers)) ?_
      refine hleads.prompt hnext fun statement middle hrun => ?_
      exact hprompt statement middle ((hsame tokens rfl).trans hrun)
    · -- no statement starts with the token, and so the first token is to blame
      refine prompt_of_refused (hpossible hnext) ?_ fun {cause rest} hrun => ?_
      · rintro token htoken more ⟨x, last, hrun⟩
        obtain ⟨cause, herror⟩ := hrefused (token :: more) htoken.symm
        rw [run_bind_error herror] at hrun
        cases hrun
      · obtain ⟨cause', herror⟩ := hrefused tokens rfl
        rw [run_bind_error herror] at hrun
        cases hrun
        exact .inl rfl

/-- The semicolon that may stand behind a statement. -/
def semicolon : Rule Unit := do
  if ← looksAt (.anyOf .semicolon) then
    discard take
    return ()
  else return ()

/-- Nothing may be left behind a statement. -/
def ending (found : Statement) : Rule Statement := do
  match ← peek with
  | none => return found
  | some token => throw (.trailingToken token)

theorem statement_eq :
    Rule.statement = body >>= fun found => semicolon >>= fun _ => ending found := by
  have hsemicolon : ∀ found, (semicolon >>= fun _ => ending found) =
      (looksAt (.anyOf .semicolon) >>= fun ahead =>
        if ahead then (discard take : Rule Unit) >>= fun _ => ending found else ending found) := by
    intro found
    rw [semicolon, bind_assoc]
    congr 1
    funext ahead
    cases ahead <;> simp
  simp only [hsemicolon]
  rfl

theorem leads_semicolon : Leads semicolon :=
  leads_optional ⟨.semicolon, ";"⟩ rfl nofun (leads_pure ()) (leads_pure ())

theorem possible_ending (found : Statement) : Possible (ending found) :=
  ⟨[], rfl, found, [], rfl⟩

theorem prompt_ending (found : Statement) (tokens : List Token) : Prompt (ending found) tokens := by
  refine prompt_of_refused (possible_ending found) ?_ fun {cause rest} hrun => ?_
  · -- a token is always one too many here
    rintro token - more ⟨x, last, hrun⟩
    cases hrun
  · cases tokens with
    | nil => cases hrun
    | cons token others =>
      cases hrun
      exact .inl rfl

/-- The reading of a statement fails at the first token with which it cannot go on. -/
theorem prompt_statement (tokens : List Token) : Prompt Rule.statement tokens := by
  rw [statement_eq]
  refine leads_body.prompt (fun found => leads_semicolon.possible fun _ => possible_ending found) ?_
  intro found middle hbody
  refine leads_semicolon.prompt (fun _ => possible_ending found) fun u rest hrun => ?_
  exact prompt_ending found rest

end Rule

/-- If tokens are no statement, then the reading stops at the earliest token that is to blame. Behind
the first `k` tokens there could stand others with which they are a statement; with the next one behind
them there could not, and if there is no next one they are no statement themselves. This token is the
first one left, or the last one read. -/
theorem Statement.ofTokens_error_earliest {tokens rest : List Token} {cause : SyntaxError}
    (h : ofTokens tokens = .error cause rest) :
    ∃ k ≤ tokens.length,
      (∃ more statement, ofTokens (tokens.take k ++ more) = .ok statement []) ∧
      (k < tokens.length → ∀ more statement last,
        ofTokens (tokens.take (k + 1) ++ more) ≠ .ok statement last) ∧
      (k = tokens.length → ∀ statement last, ofTokens tokens ≠ .ok statement last) ∧
      (rest = tokens.drop k ∨ k < tokens.length ∧ rest = tokens.drop (k + 1)) := by
  obtain ⟨read, after, rfl, ⟨more, statement, last, hmore⟩, hdead, hleft⟩ :=
    Rule.prompt_statement tokens cause rest h
  obtain ⟨rfl, -⟩ := Rule.run_statement_iff.mp hmore
  refine ⟨read.length, ?_, ⟨more, statement, ?_⟩, ?_, ?_, ?_⟩
  · simp
  · rw [List.take_left]
    exact hmore
  · -- one token more is the one with which the grammar cannot go on
    intro hlt more' statement' last' hok
    cases after with
    | nil => simp at hlt
    | cons token others =>
      rw [List.take_length_add_append, List.take_succ_cons, List.take_zero, List.append_assoc,
        List.singleton_append] at hok
      exact hdead token rfl more' ⟨statement', last', hok⟩
  · intro _ statement' last' hok
    rw [h] at hok
    cases hok
  · rw [List.drop_left]
    cases after with
    | nil => exact .inl (or_self_iff.mp hleft)
    | cons token others =>
      refine hleft.imp_right fun hrest => ⟨by simp, ?_⟩
      rw [List.drop_length_add_append]
      exact hrest

/-- An operator that is none is read before it is refused, and it is to blame. -/
theorem Statement.ofTokens_error_earliest_operator :
    let tokens : List Token := [⟨.keyword, "DELETE"⟩, ⟨.keyword, "FROM"⟩, ⟨.identifier, "t"⟩,
      ⟨.keyword, "WHERE"⟩, ⟨.identifier, "a"⟩, ⟨.operator, "<>"⟩, ⟨.number, "1"⟩]
    ofTokens tokens = .error (.unknownOperator ⟨.operator, "<>"⟩) [⟨.number, "1"⟩] ∧
      (∃ more statement, ofTokens (tokens.take 5 ++ more) = .ok statement []) ∧
      ∀ more statement last, ofTokens (tokens.take 6 ++ more) ≠ .ok statement last := by
  intro tokens
  have herror : ofTokens tokens =
      .error (.unknownOperator ⟨.operator, "<>"⟩) [⟨.number, "1"⟩] := rfl
  obtain ⟨k, hk, hviable, hdead, -, hrest⟩ := ofTokens_error_earliest herror
  have hlength : tokens.length = 7 := rfl
  -- one token is left, so the one to blame is the last one read or this one
  have hcases : k = 5 ∨ k = 6 := by
    rcases hrest with hrest | ⟨-, hrest⟩
    · have hdrop := congrArg List.length hrest
      rw [List.length_drop, List.length_singleton] at hdrop
      omega
    · have hdrop := congrArg List.length hrest
      rw [List.length_drop, List.length_singleton] at hdrop
      omega
  rcases hcases with rfl | rfl
  · exact ⟨herror, hviable, hdead (by omega)⟩
  · obtain ⟨more, statement, hok⟩ := hviable
    cases hok

end TableStore.Sql
