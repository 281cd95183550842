import RequestCondition.Context
import RequestCondition.Proofs.Evaluator.References
import RequestCondition.Proofs.Parser.NormalForm

/-!
# A binding for every reference

Bindings keep a variable under the key of its reference, which is the name and the arguments joined
by colons.  That is not enough to tell all references apart: `A:B` is the key of a name with an
argument, and it would be the key of a name with a colon in it.

But there is no such name.  In what is parsed a name is a word, and at most one argument stands
behind it (`VarRef.IsNormal`).  So the first colon of a key, if there is one, is where the name
ends, whatever the argument is: `VarRef.ofKey` reads the reference back.  References that are parsed
have different keys if they are different, and a change to one key is a change to one reference at
most (`Bindings.reference_unshared`).

What makes this a property of conditions and templates, and not of references alone, is that normal
form is known of every tree that is parsed.  A reference may stand anywhere in it, as a part of a
string in an argument of a function, say, so the first section carries normal form from the tree to
all its references.
-/

set_option autoImplicit false

namespace RequestCondition

/-! ## References of normal trees

Normal form is a property of every subtree, so it goes down to operands, and from a node to the
references that stand in it itself. -/

namespace Expr

variable {o : ParseOptions} {e a : Expr}

theorem Normal.operand (h : e.Normal o) (ha : a ∈ e.operands) : a.Normal o := by
  intro b hb
  refine h b ?_
  rw [subtrees, descendants_eq]
  exact List.mem_cons_of_mem _ (List.mem_flatMap.2 ⟨a, ha, hb⟩)

/-- A node in normal form has references in normal form. -/
theorem IsNormal.ownReferences (h : e.IsNormal o) : ∀ ref ∈ e.ownReferences, ref.IsNormal := by
  intro ref href
  cases e with
  | string parts =>
    obtain ⟨p, hp, hpart⟩ := List.mem_filterMap.1 href
    cases p with
    | «variable» ref' =>
      obtain rfl := Option.some.inj hpart
      exact h.part _ hp
    | text _ | backref _ => cases hpart
  | «variable» ref' =>
    obtain rfl := List.mem_singleton.1 href
    exact h
  | _ => cases href

/-- Every reference in a tree in normal form is in normal form. -/
theorem Normal.references (h : e.Normal o) : ∀ ref ∈ e.references, ref.IsNormal := by
  induction e using Expr.induction_operands with
  | h e ih =>
    intro ref href
    rw [references_eq, List.mem_append, List.mem_flatMap] at href
    obtain ⟨a, ha, href⟩ | href := href
    · exact ih a ha (h.operand ha) ref href
    · exact (h e List.mem_cons_self).ownReferences ref href

end Expr

/-! ## Keys -/

namespace VarRef

variable {v w : VarRef}

/-- The reference that a key stands for: the name ends at the first colon. -/
def ofKey (key : String) : VarRef where
  name := String.ofList (key.toList.takeWhile (· != ':'))
  args :=
    match key.toList.dropWhile (· != ':') with
    | [] => []
    | _ :: arg => [String.ofList arg]

theorem colon_notMem_of_isVarName {name : String} (h : IsVarName name) :
    ∀ c ∈ name.toList, (c != ':') = true := by
  intro c hc
  rw [bne_iff_ne]
  rintro rfl
  have := h.2 _ hc
  revert this
  decide

/-- **The key of a reference in normal form can be read back.** -/
theorem IsNormal.ofKey_key (h : v.IsNormal) : ofKey v.key = v := by
  obtain ⟨name, args⟩ := v
  have hname := colon_notMem_of_isVarName h.name
  match args, h.length with
  | [], _ =>
    have hkey : (VarRef.mk name []).key.toList = name.toList := by simp [key]
    simp [ofKey, hkey, List.takeWhile_eq_self_iff.2 hname, List.dropWhile_eq_nil_iff.2 hname]
  | [arg], _ =>
    have hkey : (VarRef.mk name [arg]).key.toList = name.toList ++ ':' :: arg.toList := by
      simp [key]
    simp [ofKey, hkey, List.takeWhile_append_of_pos hname, List.dropWhile_append_of_pos hname]

theorem IsNormal.eq_of_key_eq (hv : v.IsNormal) (hw : w.IsNormal) (h : v.key = w.key) : v = w := by
  rw [← hv.ofKey_key, h, hw.ofKey_key]

/-- Without the normal form one key may be that of two references. -/
example : (VarRef.mk "A:B" []).key = (VarRef.mk "A" ["B"]).key := by decide

/-- A reference in the tree of a condition or of a template, be it written or put in by a test of
the address of the client. -/
inductive Parsed (v : VarRef) : Prop
  | condition {source : String} {options : ParseOptions} {x : Expression}
      (h : Expression.parse source options = .ok x) (hv : v ∈ x.root.references) : Parsed v
  | template {source : String} {x : Expression} (h : Expression.parseTemplate source = .ok x)
      (hv : v ∈ x.root.references) : Parsed v

theorem Parsed.isNormal (h : v.Parsed) : v.IsNormal := by
  cases h with
  | condition h hv => exact (Expression.normal_of_parse h).references v hv
  | template h hv => exact (Expression.normal_of_parseTemplate h {}).references v hv

theorem Parsed.of_map_eq {source : String} {options : ParseOptions} {refs : List VarRef}
    (h : (Expression.parse source options).map (·.root.references) = .ok refs) (hv : v ∈ refs) :
    v.Parsed := by
  cases hx : Expression.parse source options with
  | error e =>
    rw [hx] at h
    cases h
  | ok x =>
    rw [hx] at h
    obtain rfl := Except.ok.inj h
    exact .condition hx hv

end VarRef

/-! ## Changes of bindings

A change to a binding is noticed by the references with its key, and by no others. -/

namespace Bindings

variable {b : Bindings} {v : VarRef} {name : String}

/-- A new binding is noticed under its key only. -/
theorem context_insert_of_ne (h : v.key ≠ name) (value : Value) :
    (b.insert name value).context v = b.context v := by
  rw [insert, context, context, b.values.find?_insert_of_ne value h]

/-- A binding that is taken away is missed under its key only. -/
theorem context_erase_of_ne (h : v.key ≠ name) : (b.erase name).context v = b.context v := by
  rw [erase, context, context, b.values.find?_erase_of_ne h]

/-- **Different references never share a binding.**  Of two references that are parsed, in
conditions or templates and as parts of strings or on their own, the keys are the same only if the
names and the arguments are.  So a value that is put under a name, or taken away from it, makes a
difference to one reference at most. -/
theorem reference_unshared :
    (∀ v w : VarRef, v.Parsed → w.Parsed → v.key = w.key → v.name = w.name ∧ v.args = w.args) ∧
    ∀ (b : Bindings) (name : String) (v w : VarRef), v.Parsed → w.Parsed →
      (∀ value, (b.insert name value).context v ≠ b.context v →
        (b.insert name value).context w ≠ b.context w → v = w) ∧
      ((b.erase name).context v ≠ b.context v →
        (b.erase name).context w ≠ b.context w → v = w) := by
  have hkey {v w : VarRef} (hv : v.Parsed) (hw : w.Parsed) (h : v.key = w.key) : v = w :=
    hv.isNormal.eq_of_key_eq hw.isNormal h
  refine ⟨fun v w hv hw h ↦ ?_, fun b name v w hv hw ↦ ⟨fun value hbv hbw ↦ ?_, fun hbv hbw ↦ ?_⟩⟩
  · obtain rfl := hkey hv hw h
    exact ⟨rfl, rfl⟩
  · have hvn : v.key = name := not_imp_comm.1 (fun h ↦ context_insert_of_ne h value) hbv
    have hwn : w.key = name := not_imp_comm.1 (fun h ↦ context_insert_of_ne h value) hbw
    exact hkey hv hw (hvn.trans hwn.symm)
  · have hvn : v.key = name := not_imp_comm.1 context_erase_of_ne hbv
    have hwn : w.key = name := not_imp_comm.1 context_erase_of_ne hbw
    exact hkey hv hw (hvn.trans hwn.symm)

/-- A name without an argument, with an empty one and with one that is a colon. -/
theorem reference_unshared_colons :
    let refs : List VarRef := [⟨"REMOTE_ADDR", []⟩, ⟨"A", []⟩, ⟨"A", [""]⟩, ⟨"A", [":"]⟩]
    let b' := (empty false).insert "A::" (.string "x")
    (∀ v ∈ refs, v.Parsed) ∧ b'.context ⟨"A", [":"]⟩ ≠ (empty false).context ⟨"A", [":"]⟩ ∧
      ∀ v ∈ refs, v ≠ ⟨"A", [":"]⟩ →
        v.key ≠ (VarRef.mk "A" [":"]).key ∧ b'.context v = (empty false).context v := by
  intro refs b'
  have hparse : (Expression.parse "-R %\x7bA\x7d && \"%\x7bA:\x7d\" == %\x7bA::\x7d").map
      (·.root.references) = .ok refs := by decide +kernel
  have hrefs : ∀ v ∈ refs, v.Parsed := fun v hv ↦ .of_map_eq hparse hv
  have hchange : b'.context ⟨"A", [":"]⟩ ≠ (empty false).context ⟨"A", [":"]⟩ := by decide
  have hlast : VarRef.Parsed ⟨"A", [":"]⟩ := hrefs _ (by decide)
  refine ⟨hrefs, hchange, fun v hv hne ↦ ⟨fun hkey ↦ hne ?_, ?_⟩⟩
  · obtain ⟨hname, hargs⟩ := reference_unshared.1 v _ (hrefs v hv) hlast hkey
    cases v
    exact congrArg₂ VarRef.mk hname hargs
  · by_contra hbv
    exact hne ((reference_unshared.2 _ _ v _ (hrefs v hv) hlast).1 _ hbv hchange)

end Bindings

end RequestCondition
