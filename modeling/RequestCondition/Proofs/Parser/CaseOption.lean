import RequestCondition.Proofs.Parser.Acceptance
import RequestCondition.Proofs.Regex.CaseFlag

/-!
# Reading without regard to case

The option to ignore case is to be worth an `i` behind every regex literal of a source and nothing
else.  A parser looks at it in one place, where it has come to a regex literal, but that place may
be anywhere in a tree, and what has been read of a tree is kept while the parser goes on.  So two
runs are compared, one with the option and one without, and of their results is asked what
`Parser.ResultsCaseless` says: the same error at the same place, or trees of which the one is the
other with all its regex literals flagged (`Expr.caseless`); and the states they end in differ in
the option alone, so that they can be gone on with.

`Caseless φ f g` says that `g` with the option comes to what `f` comes to without it, with `φ`
applied to the value.  The steps and loops of the parser keep that, and so does each function of the
grammar.  Whether a literal can be used must not depend on the flag, or an error would come up in
one run and not in the other.  That is a property of the engine (`Regex.Engine.CompilesAlike`), and
the only one that is asked of it.

Two details decide the shape of the relation.

* The map `φ` changes on the way.  An operand is taken to an operand by `Expr.caseless`, a list of
  them by the same map on every element, and what has nothing to do with trees by the identity
  (`Indifferent`).  A loop that joins trees keeps the relation if joining commutes with the map.
* The function that is run may change as well, because the grammar hands trees on: what follows a
  left operand is read by `relation below left`, and in the second run the operand is the flagged
  one.  So `Caseless` is about two functions, although they are mostly the same.

The error has no map, and there the states agree too.  So the theorem is an equation between the two
readings and not only a statement about those that succeed.
-/

set_option autoImplicit false

namespace RequestCondition

/-! ## Trees with every regex literal flagged

The map goes through the tree and changes the literals on the way.  Nothing else in a tree knows of
the flag. -/

/-- A literal with the `i` flag. -/
def RegexLiteral.caseless (r : RegexLiteral) : RegexLiteral := { r with ignoreCase := true }

namespace Expr

mutual

/-- The tree in which every regex literal, at whatever depth, has the `i` flag. -/
def caseless : Expr → Expr
  | .boolean b => .boolean b
  | .number n => .number n
  | .string parts => .string parts
  | .variable ref => .variable ref
  | .backref n => .backref n
  | .not e => .not (caseless e)
  | .logical op l r => .logical op (caseless l) (caseless r)
  | .comparison op l r => .comparison op (caseless l) (caseless r)
  | .isMatch negated subject regex => .isMatch negated (caseless subject) regex.caseless
  | .isIn needle list => .isIn (caseless needle) (caselessAll list)
  | .concat parts => .concat (caselessAll parts)
  | .call name args => .call name (caselessAll args)
  | .unaryTest op e => .unaryTest op (caseless e)
  | .binaryTest op l r => .binaryTest op (caseless l) (caseless r)

/-- The map on a list, which the recursion needs by itself. -/
def caselessAll : List Expr → List Expr
  | [] => []
  | e :: es => caseless e :: caselessAll es

end

/-- On a list the map is applied to every tree. -/
theorem caselessAll_eq_map (es : List Expr) : caselessAll es = es.map caseless := by
  induction es with
  | nil => rfl
  | cons e es ih => rw [caselessAll, ih, List.map_cons]

end Expr

/-- The expression whose tree has the `i` flag at every regex literal. -/
def Expression.caseless (x : Expression) : Expression := { x with root := x.root.caseless }

namespace Parser

variable {α β γ δ : Type} {φ : α → γ} {ψ : β → δ}

/-! ## Two runs

A run is a function of the state, so the second run starts from the state of the first with the
option put in.  Running on from there keeps the relation (`Caseless.bind`), and all the rest is put
together with that. -/

/-- The parser with the option to ignore case. -/
def caseless (p : Parser) : Parser := { p with options := { p.options with ignoreCase := true } }

/-- Two results, of a run without the option and of one with it: values that `φ` takes to each
other, or one and the same error.  The states are alike but for the option, and the engine is still
one that can use patterns with the flag as without. -/
inductive ResultsCaseless (φ : α → γ) :
    EStateM.Result ParseError Parser α → EStateM.Result ParseError Parser γ → Prop
  | ok (a : α) {q : Parser} (hq : q.options.engine.CompilesAlike) :
      ResultsCaseless φ (.ok a q) (.ok (φ a) q.caseless)
  | error (e : ParseError) (q : Parser) : ResultsCaseless φ (.error e q) (.error e q.caseless)

/-- With the option, `g` comes to what `f` comes to without it, but for `φ`. -/
def Caseless (φ : α → γ) (f : ParserM α) (g : ParserM γ) : Prop :=
  ∀ p, p.options.engine.CompilesAlike → ResultsCaseless φ (f p) (g p.caseless)

/-- **What is done one after another comes to alike results**, if each part does. -/
theorem Caseless.bind {x : ParserM α} {y : ParserM γ} {f : α → ParserM β} {g : γ → ParserM δ}
    (hx : Caseless φ x y) (hf : ∀ a, Caseless ψ (f a) (g (φ a))) :
    Caseless ψ (x >>= f) (y >>= g) := by
  intro p hp
  have h := hx p hp
  generalize hr : x p = r, hr' : y p.caseless = r' at h
  cases h with
  | ok a hq =>
    rw [bind_of_ok hr, bind_of_ok hr']
    exact hf a _ hq
  | error e q =>
    rw [bind_of_error hr, bind_of_error hr']
    exact .error e q

theorem caseless_pure (φ : α → γ) (a : α) : Caseless φ (pure a) (pure (φ a)) := fun _ ↦ .ok a

/-- What is made of the values comes to alike results, if it commutes with the maps. -/
theorem Caseless.map {x : ParserM α} {y : ParserM γ} (h : Caseless φ x y) {f : α → β} {g : γ → δ}
    (hfg : ∀ a, g (φ a) = ψ (f a)) : Caseless ψ (x.map f) (y.map g) := by
  intro p hp
  have h := h p hp
  rw [EStateM.map, EStateM.map]
  generalize x p = r, y p.caseless = r' at h
  cases h with
  | ok a hq =>
    simp only [hfg]
    exact .ok (f a) hq
  | error e q => exact .error e q

/-! ## Steps

No step looks at the option, so each of them takes a state to the same state in both runs. -/

/-- What does not come to look at the option. -/
abbrev Indifferent (f : ParserM α) : Prop := Caseless id f f

theorem indifferent_peek : Indifferent peek := fun p ↦ .ok p.current

theorem indifferent_check (test : Token → Bool) : Indifferent (check test) :=
  fun p ↦ .ok (test p.current)

theorem caseless_failWith (φ : α → γ) (cause : ParseCause) :
    Caseless φ (failWith cause) (failWith cause) := fun p _ ↦ .error _ p

theorem caseless_unexpected (φ : α → γ) (expected : Expectation) :
    Caseless φ (unexpected expected) (unexpected expected) := fun p _ ↦ .error _ p

/-- Moving on looks at the lexemes alone. -/
theorem indifferent_advance : Indifferent advance := by
  intro p hp
  have hlexemes : p.caseless.lexemes = p.lexemes := rfl
  rw [advance, advance, hlexemes]
  rcases p.lexemes.next with ⟨⟨e | t, start⟩, s⟩
  · exact .error _ { p with lexemes := s }
  · exact .ok () hp

theorem indifferent_clear : Indifferent clear :=
  fun p ↦ .ok () (q := p.cleared)

theorem indifferent_discard : Indifferent discard :=
  fun p ↦ indifferent_advance { p with current := .eof }

theorem indifferent_enter : Indifferent enter := fun p ↦ .ok () (q := p.withDepth (p.depth + 1))

theorem indifferent_leave : Indifferent leave := fun p ↦ .ok () (q := p.withDepth (p.depth - 1))

theorem indifferent_expect (t : Token) : Indifferent (expect t) :=
  (indifferent_check _).bind fun b ↦ by
    cases b with
    | false => exact caseless_unexpected _ _
    | true => exact indifferent_advance

/-- What depends on the state may depend on it as long as it does the same for both. -/
theorem caseless_get {f : Parser → ParserM α} {g : Parser → ParserM γ}
    (h : ∀ p, Caseless φ (f p) (g p.caseless)) : Caseless φ (get >>= f) (get >>= g) := by
  intro p hp
  rw [get_bind, get_bind]
  exact h p p hp

/-! ## Repetition

For each loop it is enough that its items are read alike, whatever the map of the items is. -/

section Loops

variable {isOp : Token → Bool} {join : α → α → α} {join' : γ → γ → γ} {close : Token}
  {item : ParserM α} {item' : ParserM γ}

/-- Operands that are joined from the left, one tree in each run. -/
theorem moreOperands_caseless (hjoin : ∀ a b, φ (join a b) = join' (φ a) (φ b))
    (h : Caseless φ item item') (n : Nat) (left : α) :
    Caseless φ (moreOperands isOp join item n left) (moreOperands isOp join' item' n (φ left)) := by
  induction n generalizing left with
  | zero => exact caseless_pure φ left
  | succ n ih =>
    refine (indifferent_check isOp).bind fun b ↦ ?_
    cases b with
    | false => exact caseless_pure φ left
    | true =>
      refine indifferent_advance.bind fun _ ↦ h.bind fun right ↦ ?_
      rw [← hjoin]
      exact ih (join left right)

theorem chain_caseless (hjoin : ∀ a b, φ (join a b) = join' (φ a) (φ b))
    (h : Caseless φ item item') : Caseless φ (chain isOp join item) (chain isOp join' item') := by
  refine h.bind fun left ↦ (indifferent_check isOp).bind fun b ↦ ?_
  cases b with
  | false => exact caseless_pure φ left
  | true => exact caseless_get fun p ↦ moreOperands_caseless hjoin h p.fuel left

/-- The items of a list up to the token that closes it. -/
theorem moreItems_caseless (h : Caseless φ item item') (n : Nat) :
    Caseless (List.map φ) (moreItems close item n) (moreItems close item' n) := by
  induction n with
  | zero => exact caseless_pure _ []
  | succ n ih =>
    refine (indifferent_check _).bind fun b ↦ ?_
    cases b with
    | true => exact caseless_pure _ []
    | false =>
      refine h.bind fun first ↦ (indifferent_check _).bind fun b ↦ ?_
      cases b with
      | true => exact caseless_pure _ [first]
      | false =>
        exact (indifferent_expect .comma).bind fun _ ↦ ih.bind fun others ↦
          caseless_pure _ (first :: others)

theorem items_caseless (h : Caseless φ item item') :
    Caseless (List.map φ) (items close item) (items close item') :=
  caseless_get fun p ↦ (moreItems_caseless h p.fuel).bind fun xs ↦
    (indifferent_expect close).bind fun _ ↦ caseless_pure _ xs

end Loops

/-! ## References, strings and regex literals -/

theorem variableBody_indifferent : Indifferent variableBody := by
  refine indifferent_peek.bind fun t ↦ ?_
  cases t with
  | identifier name =>
    refine indifferent_discard.bind fun _ ↦ indifferent_peek.bind fun t ↦ ?_
    cases t with
    | varArg arg =>
      exact indifferent_advance.bind fun _ ↦ (indifferent_expect .varEnd).bind fun _ ↦
        caseless_pure _ _
    | _ => exact (indifferent_expect .varEnd).bind fun _ ↦ caseless_pure _ _
  | _ => exact caseless_unexpected _ _

theorem moreParts_indifferent (close : Token) (expected : Expectation) (n : Nat) :
    Indifferent (moreParts close expected n) := by
  induction n with
  | zero => exact caseless_pure _ []
  | succ n ih =>
    refine indifferent_peek.bind fun t ↦ ?_
    have hclose : Indifferent
        (if t == close then pure [] else unexpected expected : ParserM (List StringPart)) := by
      split
      · exact caseless_pure _ []
      · exact caseless_unexpected _ _
    cases t with
    | strText text =>
      exact indifferent_discard.bind fun _ ↦ ih.bind fun others ↦ caseless_pure _ _
    | backref k =>
      exact indifferent_discard.bind fun _ ↦ ih.bind fun others ↦ caseless_pure _ _
    | varBegin =>
      exact indifferent_discard.bind fun _ ↦ variableBody_indifferent.bind fun ref ↦
        ih.bind fun others ↦ caseless_pure _ _
    | _ => exact hclose

theorem stringBody_caseless : Caseless Expr.caseless stringBody stringBody :=
  caseless_get fun p ↦ (moreParts_indifferent .strEnd .stringPart p.fuel).bind fun parts ↦
    indifferent_discard.bind fun _ ↦ caseless_pure Expr.caseless (.string parts)

/-- **The place where the option counts**: it flags the literal, and the literal can be used with
the flag if it can be used without. -/
theorem regexLiteral_caseless : Caseless RegexLiteral.caseless regexLiteral regexLiteral := by
  intro p hp
  have hcurrent : p.caseless.current = p.current := rfl
  have hengine : p.caseless.options.engine = p.options.engine := rfl
  have hoption (flag : Bool) : (flag || p.caseless.options.ignoreCase) = true := Bool.or_true flag
  rw [regexLiteral, get_bind, get_bind, hcurrent]
  cases p.current with
  | regex pattern flag =>
    simp only [hoption, hengine, hp pattern true (flag || p.options.ignoreCase)]
    split
    · exact (indifferent_advance.bind fun _ ↦ caseless_pure RegexLiteral.caseless _) p hp
    · exact caseless_failWith _ _ p hp
  | _ => exact caseless_unexpected _ _ p hp

/-! ## One level

One lemma for each function of the grammar, in the order in which they call each other. -/

/-- A grammar that reads the same trees with the option, but for flags. -/
structure GrammarCaseless (g : Grammar) : Prop where
  expression : Caseless Expr.caseless g.expression g.expression
  negation : Caseless Expr.caseless g.negation g.negation
  concat : Caseless Expr.caseless g.concat g.concat

variable {below : Option Grammar}

/-- The inside of a construct, if the level below reads alike. -/
theorem nested_caseless (hb : ∀ g ∈ below, GrammarCaseless g) {inside : Grammar → ParserM α}
    {inside' : Grammar → ParserM γ}
    (h : ∀ g, GrammarCaseless g → Caseless φ (inside g) (inside' g)) :
    Caseless φ (nested below inside) (nested below inside') := by
  cases below with
  | none => exact caseless_failWith _ _
  | some g =>
    exact indifferent_enter.bind fun _ ↦ (h g (hb g rfl)).bind fun a ↦
      indifferent_leave.bind fun _ ↦ caseless_pure φ a

/-- Operands: calls and groups have trees inside, and the others have no literal in them. -/
theorem operand_caseless (hb : ∀ g ∈ below, GrammarCaseless g) :
    Caseless Expr.caseless (operand below) (operand below) := by
  have hleaf {e : Expr} (he : e.caseless = e) : Caseless Expr.caseless (pure e) (pure e) := by
    have h := caseless_pure Expr.caseless e
    rwa [he] at h
  refine indifferent_peek.bind fun t ↦ ?_
  cases t with
  | boolean b => exact indifferent_discard.bind fun _ ↦ hleaf rfl
  | number n => exact indifferent_discard.bind fun _ ↦ hleaf rfl
  | strBegin => exact indifferent_discard.bind fun _ ↦ stringBody_caseless
  | varBegin =>
    exact indifferent_discard.bind fun _ ↦ variableBody_indifferent.bind fun ref ↦ hleaf rfl
  | backref n => exact indifferent_discard.bind fun _ ↦ hleaf rfl
  | identifier name =>
    refine indifferent_discard.bind fun _ ↦ (indifferent_check _).bind fun b ↦ ?_
    cases b with
    | false => exact hleaf rfl
    | true =>
      refine nested_caseless hb fun g hg ↦ indifferent_advance.bind fun _ ↦
        (items_caseless hg.concat).bind fun args ↦ ?_
      rw [← Expr.caselessAll_eq_map]
      exact caseless_pure Expr.caseless (.call name args)
  | lparen =>
    exact indifferent_clear.bind fun _ ↦ nested_caseless hb fun g hg ↦
      indifferent_advance.bind fun _ ↦ hg.expression.bind fun e ↦
        (indifferent_expect .rparen).bind fun _ ↦ caseless_pure _ e
  | regex _ _ => exact caseless_unexpected _ _
  | eof => exact caseless_failWith _ _
  | _ => exact caseless_unexpected _ _

/-- Operands joined by points; a single one stands for itself in both runs. -/
theorem concatenation_caseless (hb : ∀ g ∈ below, GrammarCaseless g) :
    Caseless Expr.caseless (concatenation below) (concatenation below) := by
  have hsingle := (operand_caseless hb).map (f := fun e ↦ [e]) (g := fun e ↦ [e]) fun e ↦
    (List.map_singleton (f := Expr.caseless)).symm
  refine (chain_caseless (fun _ _ ↦ List.map_append) hsingle).bind fun parts ↦ ?_
  match parts with
  | [e] => exact caseless_pure _ e
  | [] => exact caseless_pure _ _
  | e :: f :: es =>
    have h := caseless_pure Expr.caseless (.concat (e :: f :: es))
    rwa [Expr.caseless, Expr.caselessAll_eq_map] at h

/-- What follows a left operand, which is flagged in the second run. -/
theorem relation_caseless (hb : ∀ g ∈ below, GrammarCaseless g) (left : Expr) :
    Caseless Expr.caseless (relation below left) (relation below left.caseless) := by
  have hconcat := concatenation_caseless hb
  refine indifferent_peek.bind fun t ↦ ?_
  cases t with
  | compare op =>
    exact indifferent_advance.bind fun _ ↦ hconcat.bind fun right ↦
      caseless_pure Expr.caseless (.comparison op left right)
  | isMatch =>
    exact indifferent_advance.bind fun _ ↦ regexLiteral_caseless.bind fun regex ↦
      caseless_pure Expr.caseless (.isMatch false left regex)
  | isNoMatch =>
    exact indifferent_advance.bind fun _ ↦ regexLiteral_caseless.bind fun regex ↦
      caseless_pure Expr.caseless (.isMatch true left regex)
  | isIn =>
    refine indifferent_advance.bind fun _ ↦ (indifferent_expect .lbrace).bind fun _ ↦
      (items_caseless hconcat).bind fun list ↦ ?_
    rw [← Expr.caselessAll_eq_map]
    exact caseless_pure Expr.caseless (.isIn left list)
  | binaryOp op =>
    exact indifferent_advance.bind fun _ ↦ hconcat.bind fun right ↦
      caseless_pure Expr.caseless (.binaryTest op left right)
  | _ => exact caseless_pure Expr.caseless left

/-- The operand of `-R`: a literal that is flagged, or a network. -/
theorem clientTest_caseless (hb : ∀ g ∈ below, GrammarCaseless g) :
    Caseless Expr.caseless (clientTest below) (clientTest below) := by
  have hnetwork : Caseless Expr.caseless
      (concatenation below >>= fun e ↦ pure (.binaryTest "-ipmatch" clientAddress e))
      (concatenation below >>= fun e ↦ pure (.binaryTest "-ipmatch" clientAddress e)) :=
    (concatenation_caseless hb).bind fun network ↦
      caseless_pure Expr.caseless (.binaryTest "-ipmatch" clientAddress network)
  refine indifferent_peek.bind fun t ↦ ?_
  cases t with
  | regex _ _ =>
    exact regexLiteral_caseless.bind fun regex ↦
      caseless_pure Expr.caseless (.isMatch false clientAddress regex)
  | _ => exact hnetwork

theorem comparison_caseless (hb : ∀ g ∈ below, GrammarCaseless g) :
    Caseless Expr.caseless (comparison below) (comparison below) := by
  have hconcat := concatenation_caseless hb
  have hend (e : Expr) : Caseless Expr.caseless
      (check isRelational >>= fun b ↦ if b then unexpected .noSecondComparison else pure e)
      (check isRelational >>= fun b ↦
        if b then unexpected .noSecondComparison else pure e.caseless) := by
    refine (indifferent_check _).bind fun b ↦ ?_
    cases b with
    | false => exact caseless_pure _ e
    | true => exact caseless_unexpected _ _
  refine indifferent_peek.bind fun t ↦ ?_
  cases t with
  | unaryOp op =>
    refine indifferent_advance.bind fun _ ↦ ?_
    by_cases hop : op = "-R"
    · simp only [if_pos hop]
      exact (clientTest_caseless hb).bind hend
    · simp only [if_neg hop]
      exact hconcat.bind fun e ↦ hend (.unaryTest op e)
  | _ => exact hconcat.bind fun left ↦ (relation_caseless hb left).bind hend

theorem negation_caseless (hb : ∀ g ∈ below, GrammarCaseless g) :
    Caseless Expr.caseless (negation below) (negation below) := by
  refine (indifferent_check _).bind fun b ↦ ?_
  cases b with
  | false => exact comparison_caseless hb
  | true =>
    exact nested_caseless hb fun g hg ↦ indifferent_advance.bind fun _ ↦ hg.negation.bind fun e ↦
      caseless_pure Expr.caseless (.not e)

theorem around_caseless (hb : ∀ g ∈ below, GrammarCaseless g) : GrammarCaseless (around below) where
  expression := chain_caseless (fun _ _ ↦ rfl)
    (chain_caseless (fun _ _ ↦ rfl) (negation_caseless hb))
  negation := negation_caseless hb
  concat := concatenation_caseless hb

/-- **Every level of the grammar reads alike.** -/
theorem level_caseless (n : Nat) : GrammarCaseless (level n) := by
  induction n with
  | zero => exact around_caseless nofun
  | succ n ih =>
    refine around_caseless fun g hg ↦ ?_
    obtain rfl := Option.some.inj hg
    exact ih

/-! ## Whole sources -/

theorem expression_caseless : Caseless Expr.caseless expression expression :=
  caseless_get fun _ ↦ (level_caseless _).expression

theorem whole_caseless : Caseless Expr.caseless whole whole := by
  refine expression_caseless.bind fun e ↦ (indifferent_check _).bind fun b ↦ ?_
  cases b with
  | false => exact caseless_unexpected _ _
  | true => exact caseless_pure _ e

theorem ofLexer_caseless (l : Lexer) (engine : Regex.Engine) :
    ofLexer l ⟨true, engine⟩ = (ofLexer l ⟨false, engine⟩).map caseless := by
  rw [ofLexer, ofLexer]
  rcases l.stream.next with ⟨⟨e | t, start⟩, s⟩ <;> rfl

end Parser

namespace Expression

/-- The two readings of a source, for any engine that can use a pattern with the flag as without. -/
theorem parse_caseless {engine : Regex.Engine} (h : engine.CompilesAlike) (source : String) :
    parse source ⟨true, engine⟩ = (parse source ⟨false, engine⟩).map caseless := by
  rw [parse, parse, Parser.ofLexer_caseless]
  cases hp : Parser.ofLexer (.condition source) ⟨false, engine⟩ with
  | error e => rfl
  | ok p =>
    obtain ⟨-, -, hoptions⟩ := Parser.looksAt_of_ofLexer hp
    have hengine : p.options.engine = engine := by rw [hoptions]
    have hruns := Parser.whole_caseless p (hengine ▸ h)
    simp only [Except.map]
    generalize Parser.whole p = r, Parser.whole p.caseless = r' at hruns
    cases hruns <;> rfl

/-- **The option to ignore case is an `i` flag at every regex literal**, for any engine that can use
a pattern with the flag exactly if it can use it without.  With the option a source is read if and
only if it is read without, into the same tree but for the flags, which are set at any depth; and if
it is not read, the error is the same, at the same place.  The engine at hand is such an engine. -/
theorem parse_ignoringCase :
    (∀ engine : Regex.Engine, engine.CompilesAlike → ∀ source,
      parse source ⟨true, engine⟩ = (parse source ⟨false, engine⟩).map caseless) ∧
    ∀ source, parse source { ignoreCase := true } = (parse source).map caseless :=
  ⟨fun _ h ↦ parse_caseless h, parse_caseless Regex.Engine.standard_compilesAlike⟩

/-- Two literals, one with a flag of its own, and one behind the test of the client's address. -/
theorem parse_ignoringCase_literals :
    Regex.Engine.standard.CompilesAlike ∧
      parse "$1 =~ /a/ || !(-R /b/i && $2 !~ m#c#)" ⟨true, .standard⟩ =
        (parse "$1 =~ /a/ || !(-R /b/i && $2 !~ m#c#)" ⟨false, .standard⟩).map caseless :=
  ⟨Regex.Engine.standard_compilesAlike,
    parse_ignoringCase.1 .standard Regex.Engine.standard_compilesAlike _⟩

end Expression

end RequestCondition
