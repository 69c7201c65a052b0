import Mathlib.Data.List.Forall2
import RustLint.Proofs.Lowering.Places
import RustLint.Proofs.Lowering.Success

set_option autoImplicit false

namespace RustLint.Lowering

/-! Computations that agree. -/

/-- The results are related, or there is none on either side; then the errors are the same when
`strict`. -/
inductive Agree {α β : Type} (strict : Bool) (R : α → β → Prop) :
    Except LowerError α → Except LowerError β → Prop
  | ok (a : α) (b : β) (related : R a b) : Agree strict R (.ok a) (.ok b)
  | error (e e' : LowerError) (same : strict = true → e = e') : Agree strict R (.error e) (.error e')

namespace Agree

variable {α β γ δ : Type} {strict : Bool} {R : α → β → Prop} {S : γ → δ → Prop}

theorem refl (x : Except LowerError α) : Agree strict Eq x x := by
  cases x with
  | ok a => exact .ok a a rfl
  | error e => exact .error e e fun _ => rfl

theorem pure {a : α} {b : β} (related : R a b) : Agree strict R (Pure.pure a) (Pure.pure b) :=
  .ok a b related

theorem bind {x : Except LowerError α} {y : Except LowerError β} {f : α → Except LowerError γ}
    {g : β → Except LowerError δ} (first : Agree strict R x y)
    (next : ∀ a b, R a b → Agree strict S (f a) (g b)) : Agree strict S (x >>= f) (y >>= g) := by
  cases first with
  | ok a b related => exact next a b related
  | error e e' same => exact .error e e' same

/-- After equal results the same may follow. -/
theorem bindEq {x y : Except LowerError α} {f : α → Except LowerError γ}
    {g : α → Except LowerError δ} (first : Agree strict Eq x y)
    (next : ∀ a, Agree strict S (f a) (g a)) : Agree strict S (x >>= f) (y >>= g) := by
  refine first.bind ?_
  rintro a _ rfl
  exact next a

/-- The same branch is taken. -/
theorem ite {p q : Prop} [Decidable p] [Decidable q] (same : q ↔ p)
    {x y : Except LowerError α} {x' y' : Except LowerError β}
    (yes : p → Agree strict R x x') (no : ¬p → Agree strict R y y') :
    Agree strict R (if p then x else y) (if q then x' else y') := by
  by_cases holds : p
  · rw [if_pos holds, if_pos (same.mpr holds)]
    exact yes holds
  · rw [if_neg holds, if_neg (mt same.mp holds)]
    exact no holds

theorem map {x y : Except LowerError α} (g : α → γ) (first : Agree strict Eq x y) :
    Agree strict Eq (g <$> x) (g <$> y) := first.bindEq fun _ => .pure rfl

theorem outOfArguments {x y : Except LowerError α} (first : Agree strict Eq x y) :
    Agree strict Eq (x.mapError LowerError.outOfArguments)
      (y.mapError LowerError.outOfArguments) := by
  cases first with
  | ok a b related => exact .ok a b related
  | error e e' same => exact .error _ _ fun isStrict => congrArg _ (same isStrict)

/-- The same results come out. -/
theorem ok_iff {x y : Except LowerError α} (agree : Agree strict Eq x y) (a : α) :
    x = .ok a ↔ y = .ok a := by
  cases agree with
  | ok b _ same => rw [same]
  | error e e' _ => exact ⟨nofun, nofun⟩

/-- Where any two errors agree, the results alone count. -/
theorem of_ok_iff {x y : Except LowerError α} (same : ∀ a, x = .ok a ↔ y = .ok a) :
    Agree false Eq x y := by
  cases x with
  | ok a =>
    rw [(same a).mp rfl]
    exact .ok a a rfl
  | error e =>
    cases y with
    | ok b => exact absurd ((same b).mpr rfl) nofun
    | error e' => exact .error e e' nofun

theorem eq_of_strict {x y : Except LowerError α} (agree : Agree true Eq x y) : x = y := by
  cases agree with
  | ok a _ same => rw [same]
  | error e e' same => rw [same rfl]

end Agree

/-! Trees that are alike. -/

/-- The kinds of nodes that need not have the same children. -/
def looseKinds : List String := ["if_expression", "macro_invocation"]

/-- How two trees are compared. -/
structure View where
  /-- Errors have to be the same too. -/
  strict : Bool
  /-- The node is a comment that the second tree lacks. -/
  dropped : FormTree → Prop
  /-- The node has the same kind in the second tree and the same children. -/
  kept : FormTree → Prop
  /-- The node is compared as a type. -/
  typed : FormTree → Prop
  kept_of_kind : ∀ t, t.kind ∉ looseKinds → kept t
  typed_of_mem_typeParts : ∀ t, typed t → ∀ u ∈ t.typeParts, typed u

/-- The trees of the second list are those of the first without those that are dropped. -/
inductive Paired (view : View) (R : FormTree → FormTree → Prop) :
    Siblings Forms → Siblings Forms → Prop
  | nil : Paired view R [] []
  | cons (t u : FormTree) (ts us : Siblings Forms) (here : R t u) (rest : Paired view R ts us) :
      Paired view R (t :: ts) (u :: us)
  | skip (t : FormTree) (ts us : Siblings Forms) (dropped : view.dropped t)
      (comment : t.info.isComment = true) (unlabelled : t.info.label = none)
      (rest : Paired view R ts us) : Paired view R (t :: ts) us

/-- What has to hold of the first tree so that the second is lowered alike. -/
structure Fits (view : View) (t : FormTree) : Prop where
  operator : t.kind = "unary_expression" → ∀ u ∈ t.children.head?, ¬view.dropped u
  result : t.kind = "function_item" → t.nodes.labelled? "return_type" = none →
    ∀ u ∈ t.nodes.rightAfter? "->", ¬view.dropped u
  reserved : ∀ u ∈ t.reserved, view.kept u
  types : ∀ u ∈ t.statedTypes, view.typed u

/-- What two nodes that are alike have in common, their children aside. -/
structure Common (view : View) (t u : FormTree) : Prop where
  label : u.info.label = t.info.label
  named : u.info.named = t.info.named
  span : u.span = t.span
  kind : u.kind = t.kind ∨
    ¬view.kept t ∧ t.kind = "if_expression" ∧ u.kind = "if_let_expression"
  text : u.value.text = t.value.text
  ty : view.typed t → u.value.ty = t.value.ty
  expr : Agree view.strict Eq t.value.expr u.value.expr
  block : view.kept t → Agree view.strict Eq t.value.block u.value.block
  items : view.kept t → ∀ exported,
    Agree view.strict Eq (t.value.items exported) (u.value.items exported)
  fits : Fits view t

/-- The trees are alike all the way down. -/
inductive Alike (view : View) : FormTree → FormTree → Prop
  | mk (t u : FormTree) (common : Common view t u)
      (nodes : view.kept t → Paired view (Alike view) t.children u.children) : Alike view t u

/-- The kinds that are never looked up. -/
def unclear : List String :=
  ["if_expression", "if_let_expression", "macro_invocation", "line_comment", "block_comment"]

theorem ne_of_unclear {kind : String} (clear : kind ∉ unclear) :
    kind ≠ "if_expression" ∧ kind ≠ "if_let_expression" ∧ kind ≠ "macro_invocation" ∧
      kind ≠ "line_comment" ∧ kind ≠ "block_comment" := by
  simpa [unclear] using clear

namespace View

variable (view : View) {t : FormTree}

theorem kept_of_kind_eq {kind : String} (isKind : t.kind = kind) (clear : kind ∉ unclear) :
    view.kept t := by
  obtain ⟨noIf, -, noMacro, -⟩ := ne_of_unclear clear
  refine view.kept_of_kind t ?_
  simp [looseKinds, isKind, noIf, noMacro]

theorem kept_of_pass (p : String → Bool) (passes : p t.kind = true)
    (others : ∀ kind ∈ looseKinds, p kind = false) : view.kept t := by
  refine view.kept_of_kind t fun loose => ?_
  rw [others _ loose] at passes
  cases passes

end View

namespace Alike

variable {view : View} {t u : FormTree}

theorem common (alike : Alike view t u) : Common view t u := by
  cases alike with
  | mk _ _ common _ => exact common

theorem nodes (alike : Alike view t u) (kept : view.kept t) :
    Paired view (Alike view) t.nodes u.nodes := by
  cases alike with
  | mk _ _ _ nodes => exact nodes kept

/-- What does not tell the two ways to write an `if` apart reads the same of both kinds. -/
theorem ofKind {γ : Type} (alike : Alike view t u) (f : String → γ)
    (same : f "if_let_expression" = f "if_expression") : f u.kind = f t.kind := by
  rcases alike.common.kind with isKind | ⟨-, first, second⟩
  · rw [isKind]
  · rw [first, second, same]

theorem pass_iff (alike : Alike view t u) (p : String → Bool)
    (same : p "if_let_expression" = p "if_expression") :
    p u.kind = true ↔ p t.kind = true := by
  rw [alike.ofKind p same]

theorem kind_of_kept (alike : Alike view t u) (kept : view.kept t) : u.kind = t.kind := by
  rcases alike.common.kind with same | ⟨changed, -⟩
  · exact same
  · exact absurd kept changed

theorem kind_of_pass (alike : Alike view t u) (p : String → Bool) (passes : p t.kind = true)
    (noIf : p "if_expression" = false) : u.kind = t.kind := by
  rcases alike.common.kind with same | ⟨-, isIf, -⟩
  · exact same
  · rw [isIf, noIf] at passes
    cases passes

theorem kind_iff {kind : String} (alike : Alike view t u) (clear : kind ∉ unclear) :
    u.kind = kind ↔ t.kind = kind := by
  obtain ⟨noIf, noIfLet, -⟩ := ne_of_unclear clear
  rw [alike.ofKind (· = kind) (by simp [noIf.symm, noIfLet.symm])]

theorem isComment (alike : Alike view t u) : u.info.isComment = t.info.isComment :=
  alike.ofKind (fun kind => kind == "line_comment" || kind == "block_comment") rfl

theorem isPart (alike : Alike view t u) : u.info.isPart = t.info.isPart := by
  rw [NodeInfo.isPart, NodeInfo.isPart, alike.isComment, alike.common.named]

end Alike

/-! What is found among the children. -/

namespace Paired

variable {view : View} {ts us : Siblings Forms}

theorem of_forall₂ (all : List.Forall₂ (Alike view) ts us) : Paired view (Alike view) ts us := by
  induction all with
  | nil => exact .nil
  | cons here _ ih => exact .cons _ _ _ _ here ih

/-- A lookup by what the nodes have in common finds what is alike, if no comment is found. -/
theorem find? (paired : Paired view (Alike view) ts us) (p q : FormTree → Bool)
    (same : ∀ t u, Alike view t u → q u = p t)
    (noComment : ∀ t : FormTree, t.info.isComment = true → t.info.label = none → p t = false) :
    Option.Rel (Alike view) (ts.find? p) (us.find? q) := by
  induction paired with
  | nil => exact .none
  | cons t u ts us here rest ih =>
    rw [List.find?_cons, List.find?_cons, same t u here]
    cases p t with
    | true => exact .some here
    | false => exact ih
  | skip t ts us dropped comment unlabelled rest ih =>
    rw [List.find?_cons, noComment t comment unlabelled]
    exact ih

theorem filter (paired : Paired view (Alike view) ts us) (p q : FormTree → Bool)
    (same : ∀ t u, Alike view t u → q u = p t)
    (noComment : ∀ t : FormTree, t.info.isComment = true → p t = false) :
    List.Forall₂ (Alike view) (ts.filter p) (us.filter q) := by
  induction paired with
  | nil => exact .nil
  | cons t u ts us here rest ih =>
    rw [List.filter_cons, List.filter_cons, same t u here]
    split
    · exact .cons here ih
    · exact ih
  | skip t ts us dropped comment unlabelled rest ih =>
    rw [List.filter_cons, noComment t comment]
    exact ih

theorem any (paired : Paired view (Alike view) ts us) (p q : FormTree → Bool)
    (same : ∀ t u, Alike view t u → q u = p t)
    (noComment : ∀ t : FormTree, t.info.isComment = true → t.info.label = none → p t = false) :
    us.any q = ts.any p := by
  induction paired with
  | nil => rfl
  | cons t u ts us here rest ih => rw [List.any_cons, List.any_cons, same t u here, ih]
  | skip t ts us dropped comment unlabelled rest ih =>
    rw [List.any_cons, noComment t comment unlabelled, Bool.false_or, ih]

theorem kind_beq {kind : String} (clear : kind ∉ unclear) (t u : FormTree)
    (alike : Alike view t u) : (u.kind == kind) = (t.kind == kind) := by
  simp only [beq_eq_decide, alike.kind_iff clear]

theorem kind_beq_of_isComment {kind : String} (clear : kind ∉ unclear) (t : FormTree)
    (comment : t.info.isComment = true) : (t.kind == kind) = false := by
  obtain ⟨-, -, -, noLine, noBlock⟩ := ne_of_unclear clear
  rw [NodeInfo.isComment, Bool.or_eq_true, beq_iff_eq, beq_iff_eq] at comment
  rcases comment with line | block
  · simp [Tree.kind, line, noLine.symm]
  · simp [Tree.kind, block, noBlock.symm]

theorem label_beq (label : String) (t u : FormTree) (alike : Alike view t u) :
    (u.info.label == some label) = (t.info.label == some label) := by
  rw [alike.common.label]

theorem label_beq_of_unlabelled (label : String) (t : FormTree) (unlabelled : t.info.label = none) :
    (t.info.label == some label) = false := by
  rw [unlabelled]
  rfl

variable (paired : Paired view (Alike view) ts us)

include paired

theorem labelled? (label : String) :
    Option.Rel (Alike view) (ts.labelled? label) (us.labelled? label) :=
  paired.find? _ _ (label_beq label) fun t _ => label_beq_of_unlabelled label t

theorem ofKind? (kind : String) (clear : kind ∉ unclear) :
    Option.Rel (Alike view) (ts.ofKind? kind) (us.ofKind? kind) :=
  paired.find? _ _ (kind_beq clear) fun t comment _ => kind_beq_of_isComment clear t comment

theorem hasKind (kind : String) (clear : kind ∉ unclear) : us.hasKind kind = ts.hasKind kind :=
  paired.any _ _ (kind_beq clear) fun t comment _ => kind_beq_of_isComment clear t comment

theorem parts : List.Forall₂ (Alike view) ts.parts us.parts := by
  refine paired.filter _ _ (fun t u alike => alike.isPart) ?_
  intro t comment
  rw [NodeInfo.isPart, comment, Bool.not_true, Bool.and_false]

theorem spoken : List.Forall₂ (Alike view) ts.spoken us.spoken := by
  refine paired.filter _ _ (fun t u alike => congrArg _ alike.isComment) ?_
  intro t comment
  rw [comment, Bool.not_true]

theorem partAfter? (kind : String) (clear : kind ∉ unclear) :
    Option.Rel (Alike view) (ts.partAfter? kind) (us.partAfter? kind) := by
  have isToken (t u : FormTree) (alike : Alike view t u) :
      (u.kind == kind && !u.info.named) = (t.kind == kind && !t.info.named) := by
    rw [kind_beq clear t u alike, alike.common.named]
  unfold Siblings.partAfter?
  dsimp only
  induction paired with
  | nil => exact .none
  | cons t u ts us here rest ih =>
    rw [List.dropWhile_cons, List.dropWhile_cons, isToken t u here]
    split
    · exact ih
    · refine (Paired.cons t u ts us here rest).find? _ _ (fun t u alike => alike.isPart) ?_
      intro t comment _
      rw [NodeInfo.isPart, comment, Bool.not_true, Bool.and_false]
  | skip t ts us dropped comment unlabelled rest ih =>
    rw [List.dropWhile_cons, kind_beq_of_isComment clear t comment]
    exact ih

theorem head? (first : ∀ t ∈ ts.head?, ¬view.dropped t) :
    Option.Rel (Alike view) ts.head? us.head? := by
  cases paired with
  | nil => exact .none
  | cons t u ts us here _ => exact .some here
  | skip t ts us dropped _ _ _ => exact absurd dropped (first t rfl)

omit paired in
theorem rightAfter?_cons (kind : String) (t : FormTree) (ts : Siblings Forms) :
    Siblings.rightAfter? kind (t :: ts) =
      if t.kind == kind then ts.head? else Siblings.rightAfter? kind ts := by
  cases ts with
  | nil => cases t.kind == kind <;> rfl
  | cons u ts => rw [Siblings.rightAfter?, List.head?_cons]

theorem rightAfter? (kind : String) (clear : kind ∉ unclear)
    (behind : ∀ t ∈ ts.rightAfter? kind, ¬view.dropped t) :
    Option.Rel (Alike view) (ts.rightAfter? kind) (us.rightAfter? kind) := by
  induction paired with
  | nil => exact .none
  | cons t u ts us here rest ih =>
    rw [rightAfter?_cons] at behind ⊢
    rw [rightAfter?_cons, kind_beq clear t u here]
    split
    · next isKind =>
      rw [if_pos isKind] at behind
      exact rest.head? behind
    · next other =>
      rw [if_neg other] at behind
      exact ih behind
  | skip t ts us dropped comment unlabelled rest ih =>
    rw [rightAfter?_cons, kind_beq_of_isComment clear t comment] at behind ⊢
    exact ih behind

end Paired

/-! What is found in lists of nodes that are alike. -/

section Lists

variable {view : View} {ts us : List FormTree}

theorem rel_head? (all : List.Forall₂ (Alike view) ts us) :
    Option.Rel (Alike view) ts.head? us.head? := by
  cases all with
  | nil => exact .none
  | cons here _ => exact .some here

theorem rel_getLast? (all : List.Forall₂ (Alike view) ts us) :
    Option.Rel (Alike view) ts.getLast? us.getLast? := by
  rw [← List.head?_reverse, ← List.head?_reverse]
  exact rel_head? (List.rel_reverse all)

theorem rel_or {R : FormTree → FormTree → Prop} {a b a' b' : Option FormTree}
    (first : Option.Rel R a a') (second : a = none → Option.Rel R b b') :
    Option.Rel R (a.or b) (a'.or b') := by
  cases first with
  | none => exact second rfl
  | some here => exact .some here

theorem rel_cases {α β : Type} {R : α → β → Prop} {t? : Option α} {u? : Option β}
    (rel : Option.Rel R t? u?) :
    (t? = none ∧ u? = none) ∨ ∃ t u, t? = some t ∧ u? = some u ∧ R t u := by
  cases rel with
  | none => exact .inl ⟨rfl, rfl⟩
  | some here => exact .inr ⟨_, _, rfl, rfl, here⟩

theorem rel_find? (all : List.Forall₂ (Alike view) ts us) (p : FormTree → Bool)
    (same : ∀ t u, Alike view t u → p u = p t) :
    Option.Rel (Alike view) (ts.find? p) (us.find? p) := by
  induction all with
  | nil => exact .none
  | @cons t u ts us here _ ih =>
    rw [List.find?_cons, List.find?_cons, same t u here]
    cases p t with
    | true => exact .some here
    | false => exact ih

theorem rel_filter (all : List.Forall₂ (Alike view) ts us) (p : String → Bool)
    (same : p "if_let_expression" = p "if_expression") :
    List.Forall₂ (Alike view) (ts.filter fun t => p t.kind) (us.filter fun u => p u.kind) := by
  refine List.rel_filter ?_ all
  intro t u alike
  dsimp only
  rw [alike.ofKind p same]

/-- Whatever is the same of nodes that are alike is the same of lists of them. -/
theorem map_eq {γ : Type} (all : List.Forall₂ (Alike view) ts us) (f : FormTree → γ)
    (same : ∀ t ∈ ts, ∀ u, Alike view t u → f u = f t) : us.map f = ts.map f := by
  induction all with
  | nil => rfl
  | @cons t u ts us here _ ih =>
    rw [List.map_cons, List.map_cons, same t List.mem_cons_self u here,
      ih fun t later => same t (List.mem_cons_of_mem _ later)]

theorem filterMap_eq {γ : Type} (all : List.Forall₂ (Alike view) ts us) (f : FormTree → Option γ)
    (same : ∀ t ∈ ts, ∀ u, Alike view t u → f u = f t) : us.filterMap f = ts.filterMap f := by
  have mapped (l : List FormTree) : l.filterMap f = (l.map f).filterMap id := by
    rw [List.filterMap_map, Function.id_comp]
  rw [mapped, mapped, map_eq all f same]

theorem option_map_eq {γ : Type} {t? u? : Option FormTree} (rel : Option.Rel (Alike view) t? u?)
    (f : FormTree → γ) (same : ∀ t ∈ t?, ∀ u, Alike view t u → f u = f t) :
    u?.map f = t?.map f := by
  cases rel with
  | none => rfl
  | some here => rw [Option.map_some, Option.map_some, same _ rfl _ here]

end Lists

namespace Paired

variable {view : View} {ts us : Siblings Forms} (paired : Paired view (Alike view) ts us)

include paired

theorem firstPart? : Option.Rel (Alike view) ts.firstPart? us.firstPart? := rel_head? paired.parts

theorem lastPart? : Option.Rel (Alike view) ts.lastPart? us.lastPart? := rel_getLast? paired.parts

/-- What is found under a label or by its kind, when all that is found there keeps its kind. -/
theorem place? (label kind : String) (clear : kind ∉ unclear)
    (reserved : ∀ t ∈ ts.labelled? label, view.kept t) :
    Option.Rel (fun t u => Alike view t u ∧ view.kept t) ((ts.labelled? label).or (ts.ofKind? kind))
      ((us.labelled? label).or (us.ofKind? kind)) := by
  refine rel_or ?_ fun _ => ?_
  · have labelled := paired.labelled? label
    generalize ts.labelled? label = first, us.labelled? label = second at labelled reserved
    cases labelled with
    | none => exact .none
    | some here => exact .some ⟨here, reserved _ rfl⟩
  · have ofKind := paired.ofKind? kind clear
    have isKind := Siblings.kind_of_ofKind? ts kind
    generalize ts.ofKind? kind = first, us.ofKind? kind = second at ofKind isKind
    cases ofKind with
    | none => exact .none
    | some here => exact .some ⟨here, view.kept_of_kind_eq (isKind _ rfl) clear⟩

end Paired

/-! The parts of an `if` beside its block and its else clause. -/

section ExceptFirst

variable {α : Type} (p q : α → Bool) (l : List α)

/-- The elements but the first with one property and the first with the other. -/
def exceptFirst (p q : α → Bool) : List α → List α
  | [] => []
  | a :: as =>
    let rest := exceptFirst (if p a then fun _ => false else p) (if q a then fun _ => false else q) as
    if p a || q a then rest else a :: rest

theorem or_findIdx? :
    (l.findIdx? p).or (l.findIdx? q) = l.findIdx? (if l.any p then p else q) := by
  cases some? : l.any p with
  | true =>
    have found : (l.findIdx? p).isSome = true := by rw [List.findIdx?_isSome, some?]
    obtain ⟨i, place⟩ := Option.isSome_iff_exists.mp found
    simp [place]
  | false =>
    have missing : l.findIdx? p = none := by
      rw [← Option.not_isSome_iff_eq_none, List.findIdx?_isSome, some?]
      decide
    simp [missing]

theorem head_bne_findIdx? (a : α) (n : Nat) :
    (some n != ((a :: l).findIdx? p).map (· + n)) = !p a := by
  rw [List.findIdx?_cons]
  cases p a with
  | true => simp
  | false => cases List.findIdx? p l <;> simp

/-- Behind the first element with the property no place is the place of the first one. -/
theorem tail_bne_findIdx? (a : α) (n i : Nat) (later : n < i) :
    (some i != ((a :: l).findIdx? p).map (· + n)) =
      (some i != (l.findIdx? (if p a then fun _ => false else p)).map (· + (n + 1))) := by
  rw [List.findIdx?_cons]
  cases p a with
  | true =>
    have other : (some i != some n) = true :=
      bne_iff_ne.mpr fun same => Nat.ne_of_gt later (Option.some.inj same)
    have nowhere : l.findIdx? (fun _ => false) = none := by simp
    simp only [if_true, Option.map_some, Nat.zero_add, other, nowhere]
    rfl
  | false =>
    have shift : ((fun j => j + n) ∘ fun j => j + 1) = fun j => j + (n + 1) := by
      funext j
      simp only [Function.comp_apply]
      omega
    simp only [Bool.false_eq_true, if_false, Option.map_map, shift]

theorem filter_zipIdx (keep : α → Bool) (n : Nat) :
    ((l.zipIdx n).filter fun (a, i) => keep a && some i != (l.findIdx? p).map (· + n) &&
      some i != (l.findIdx? q).map (· + n)).map (·.1) = (exceptFirst p q l).filter keep := by
  induction l generalizing p q n with
  | nil => rfl
  | cons a l ih =>
    have tail : ((l.zipIdx (n + 1)).filter fun (b, i) =>
        keep b && some i != ((a :: l).findIdx? p).map (· + n) &&
          some i != ((a :: l).findIdx? q).map (· + n)).map (·.1) =
        (exceptFirst (if p a then fun _ => false else p) (if q a then fun _ => false else q)
          l).filter keep := by
      rw [← ih]
      congr 1
      refine List.filter_congr ?_
      rintro ⟨b, i⟩ listed
      have later : n < i := List.le_snd_of_mem_zipIdx listed
      dsimp only
      rw [tail_bne_findIdx? p l a n i later, tail_bne_findIdx? q l a n i later]
    rw [List.zipIdx_cons, List.filter_cons, exceptFirst]
    simp only [head_bne_findIdx?]
    cases first : p a <;> cases second : q a <;> simp only [first, second] at tail ⊢ <;>
      cases kept : keep a <;> simp [tail, kept]

end ExceptFirst

/-- A node is labelled so, or where none is, it has the kind. -/
def isPlace (below : Siblings Forms) (label kind : String) : FormTree → Bool :=
  if below.any (·.info.label == some label) then (·.info.label == some label) else (·.kind == kind)

theorem branchRest_eq (below : Siblings Forms) :
    branchRest below = (exceptFirst (isPlace below "consequence" "block")
      (isPlace below "alternative" "else_clause") below).filter (·.info.isPart) := by
  have whole := filter_zipIdx (isPlace below "consequence" "block")
    (isPlace below "alternative" "else_clause") below (·.info.isPart) 0
  simp only [Nat.add_zero, Option.map_id'] at whole
  rw [← whole, branchRest, branchPlaces, or_findIdx?, or_findIdx?]
  rfl

namespace Paired

variable {view : View} {ts us : Siblings Forms}

theorem exceptFirst (paired : Paired view (Alike view) ts us) (p q p' q' : FormTree → Bool)
    (sameP : ∀ t u, Alike view t u → p' u = p t) (sameQ : ∀ t u, Alike view t u → q' u = q t)
    (noP : ∀ t : FormTree, t.info.isComment = true → t.info.label = none → p t = false)
    (noQ : ∀ t : FormTree, t.info.isComment = true → t.info.label = none → q t = false) :
    List.Forall₂ (Alike view) ((Lowering.exceptFirst p q ts).filter (·.info.isPart))
      ((Lowering.exceptFirst p' q' us).filter (·.info.isPart)) := by
  induction paired generalizing p q p' q' with
  | nil => exact .nil
  | cons t u ts us here rest ih =>
    have later := ih (if p t then fun _ => false else p) (if q t then fun _ => false else q)
      (if p t then fun _ => false else p') (if q t then fun _ => false else q')
      (by split <;> [exact fun _ _ _ => rfl; exact sameP])
      (by split <;> [exact fun _ _ _ => rfl; exact sameQ])
      (by split <;> [exact fun _ _ _ => rfl; exact noP])
      (by split <;> [exact fun _ _ _ => rfl; exact noQ])
    rw [Lowering.exceptFirst, Lowering.exceptFirst, sameP t u here, sameQ t u here]
    split
    · exact later
    · rw [List.filter_cons, List.filter_cons, here.isPart]
      split
      · exact .cons here later
      · exact later
  | skip t ts us dropped comment unlabelled rest ih =>
    have noPart : t.info.isPart = false := by
      rw [NodeInfo.isPart, comment, Bool.not_true, Bool.and_false]
    rw [Lowering.exceptFirst, noP t comment unlabelled, noQ t comment unlabelled]
    rw [if_neg (by decide), List.filter_cons, if_neg (by rw [noPart]; decide)]
    exact ih p q p' q' sameP sameQ noP noQ

theorem branchRest (paired : Paired view (Alike view) ts us) :
    List.Forall₂ (Alike view) (Lowering.branchRest ts) (Lowering.branchRest us) := by
  have labels (label : String) :
      us.any (·.info.label == some label) = ts.any (·.info.label == some label) :=
    paired.any _ _ (label_beq label) fun t _ => label_beq_of_unlabelled label t
  have same (label kind : String) (clear : kind ∉ unclear) (t u : FormTree)
      (alike : Alike view t u) : isPlace us label kind u = isPlace ts label kind t := by
    rw [isPlace, isPlace, labels]
    split
    · exact label_beq label t u alike
    · exact kind_beq clear t u alike
  have noComment (label kind : String) (clear : kind ∉ unclear) (t : FormTree)
      (comment : t.info.isComment = true) (unlabelled : t.info.label = none) :
      isPlace ts label kind t = false := by
    rw [isPlace]
    split
    · exact label_beq_of_unlabelled label t unlabelled
    · exact kind_beq_of_isComment clear t comment
  rw [branchRest_eq, branchRest_eq]
  exact paired.exceptFirst _ _ _ _ (same _ "block" (by decide)) (same _ "else_clause" (by decide))
    (noComment _ "block" (by decide)) (noComment _ "else_clause" (by decide))

theorem condition? (paired : Paired view (Alike view) ts us) :
    Option.Rel (Alike view) (Lowering.condition? ts) (Lowering.condition? us) :=
  rel_or (paired.labelled? "condition") fun _ => rel_head? paired.branchRest

end Paired

end RustLint.Lowering
