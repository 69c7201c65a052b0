import RustLint.Proofs.Discovery.Walk

set_option autoImplicit false

/- Where a path leads on a file system without links. Double dots and the names in front of them go,
so that the names alone tell the place. -/
namespace RustLint

namespace Path

/-! Double dots. -/

variable (absolute : Bool) (done todo more : List String)

theorem normalizeParts_keep (part : String) (other : part ≠ "..") :
    normalizeParts absolute done (part :: todo) = normalizeParts absolute (part :: done) todo :=
  normalizeParts.eq_4 absolute done part todo (fun _ => other) (fun _ _ _ => other)

/-- Names are taken one after the other. -/
theorem normalizeParts_append : normalizeParts absolute done (todo ++ more) =
    normalizeParts absolute (normalizeParts absolute done todo).reverse more := by
  induction done, todo using normalizeParts.induct absolute with
  | case1 done => rw [List.nil_append, normalizeParts.eq_1, List.reverse_reverse]
  | case2 todo ih => rw [List.cons_append, normalizeParts, ih, normalizeParts.eq_2]
  | case3 done todo ih =>
    rw [List.cons_append, normalizeParts.eq_3, normalizeParts.eq_3, if_pos rfl, if_pos rfl, ih]
  | case4 last done todo other ih =>
    rw [List.cons_append, normalizeParts.eq_3, normalizeParts.eq_3, if_neg other, if_neg other, ih]
  | case5 done part todo first later ih =>
    rw [List.cons_append, normalizeParts.eq_4 _ _ _ _ first later,
      normalizeParts.eq_4 _ _ _ _ first later, ih]

/-- At the root the double dots in front go too. -/
theorem normalizeParts_relative : normalizeParts true [] (normalizeParts false done todo) =
    normalizeParts true [] (done.reverse ++ todo) := by
  induction done, todo using normalizeParts.induct false with
  | case1 done => rw [normalizeParts.eq_1, List.append_nil]
  | case2 todo ih =>
    rw [normalizeParts.eq_2, ih]
    rfl
  | case3 done todo ih =>
    rw [normalizeParts.eq_3, if_pos rfl, ih]
    simp
  | case4 last done todo other ih =>
    rw [normalizeParts.eq_3, if_neg other, ih, List.reverse_cons, List.append_assoc,
      normalizeParts_append, normalizeParts_append _ _ done.reverse, List.singleton_append,
      normalizeParts_keep _ _ _ last other, normalizeParts.eq_3, if_neg other]
  | case5 done part todo first later ih =>
    rw [normalizeParts.eq_4 _ _ _ _ first later, ih]
    simp

/-- No double dots are left of a path from the root. -/
theorem ne_up_of_mem_normalizeParts (none : ".." ∉ done) :
    ".." ∉ normalizeParts true done todo := by
  induction done, todo using normalizeParts.induct true with
  | case1 done => rwa [normalizeParts.eq_1, List.mem_reverse]
  | case2 todo ih =>
    rw [normalizeParts.eq_2]
    exact ih List.not_mem_nil
  | case3 done todo ih => exact absurd List.mem_cons_self none
  | case4 last done todo other ih =>
    rw [normalizeParts.eq_3, if_neg other]
    exact ih fun listed => none (List.mem_cons_of_mem last listed)
  | case5 done part todo first later ih =>
    rw [normalizeParts.eq_4 _ _ _ _ first later]
    apply ih
    rw [List.mem_cons, not_or]
    refine ⟨fun up => ?_, none⟩
    cases done with
    | nil => exact first rfl up.symm
    | cons last done => exact later last done rfl up.symm

/-- What has been taken as far as it goes stays as it is. -/
theorem normalizeParts_normal (normal : normalizeParts absolute [] done.reverse = done.reverse) :
    normalizeParts absolute [] (normalizeParts absolute done todo) =
      normalizeParts absolute done todo := by
  have push (stack : List String) (part : String)
      (before : normalizeParts absolute [] stack.reverse = stack.reverse) :
      normalizeParts absolute [] (part :: stack).reverse =
        normalizeParts absolute stack [part] := by
    rw [List.reverse_cons, normalizeParts_append, before, List.reverse_reverse]
  induction done, todo using normalizeParts.induct absolute with
  | case1 done => rwa [normalizeParts.eq_1]
  | case2 todo ih =>
    rw [normalizeParts.eq_2]
    apply ih
    cases absolute <;> rfl
  | case3 done todo ih =>
    rw [normalizeParts.eq_3, if_pos rfl]
    apply ih
    rw [push _ _ normal, normalizeParts.eq_3, if_pos rfl, normalizeParts.eq_1]
  | case4 last done todo other ih =>
    rw [normalizeParts.eq_3, if_neg other]
    apply ih
    rw [List.reverse_cons, normalizeParts_append, normalizeParts_keep _ _ _ last other,
      normalizeParts.eq_1, List.reverse_cons, List.reverse_reverse] at normal
    exact List.append_cancel_right normal
  | case5 done part todo first later ih =>
    rw [normalizeParts.eq_4 _ _ _ _ first later]
    apply ih
    rw [push _ _ normal, normalizeParts.eq_4 _ _ _ _ first later, normalizeParts.eq_1]

/-- The names of the path are normalised. -/
def IsNormal (p : Path) : Prop := normalizeParts (p.leading != 0) [] p.parts = p.parts

/-- The names behind the path, each of them taken in turn. -/
def further (p : Path) (names : List String) : Path :=
  ⟨p.leading, normalizeParts (p.leading != 0) p.parts.reverse names⟩

theorem child_eq (p : Path) (name : String) (other : name ≠ "..") :
    p.child name = p.further [name] := by
  rw [child, further, normalizeParts_keep _ _ _ name other, normalizeParts.eq_1,
    List.reverse_cons, List.reverse_reverse]

theorem further_cons (p : Path) (name : String) (names : List String) :
    p.further (name :: names) = (p.further [name]).further names := by
  rw [further, further, further, ← List.singleton_append, normalizeParts_append]

namespace IsNormal

variable {p : Path} (normal : p.IsNormal)

include normal

theorem up_eq : p.up = p.further [".."] := by
  have taken : normalizeParts (p.leading != 0) [] p.parts = p.parts := normal
  rw [up, normalize, child, further, normalizeParts_append, taken]

theorem up : p.up.IsNormal := by
  rw [normal.up_eq]
  apply normalizeParts_normal
  rw [List.reverse_reverse]
  exact normal

theorem child (name : String) (other : name ≠ "..") : (p.child name).IsNormal := by
  rw [child_eq p name other]
  apply normalizeParts_normal
  rw [List.reverse_reverse]
  exact normal

end IsNormal

/-- A name that stands for a step. -/
def isStep (name : String) : Bool := name != "" && name != "."

/-- Where a path from the root leads on a file system without links. -/
def seat (p : Path) : Path := ⟨1, normalizeParts true [] (p.parts.filter isStep)⟩

/-- On a file system without links the path leads to the root or to a place below it, and from the
root it is seen as the path `inside`. -/
structure SeenFrom (root p inside : Path) : Prop where
  rootNamed : root.hasNull = false
  named : p.hasNull = false
  relative : inside.leading = 0
  below : p.seat.parts = root.seat.parts ++ inside.parts

theorem relativeTo?_seat_eq_some_iff (p root inside : Path) :
    p.seat.relativeTo? root.seat = some inside ↔
      inside.leading = 0 ∧ p.seat.parts = root.seat.parts ++ inside.parts := by
  have noUp : ".." ∉ p.seat.parts := ne_up_of_mem_normalizeParts [] _ List.not_mem_nil
  have stays : (p.seat.parts.drop root.seat.parts.length).head? != some ".." := by
    rw [bne_iff_ne]
    exact fun up => noUp (List.mem_of_mem_drop (List.mem_of_head? up))
  have same : p.seat.leading = root.seat.leading := rfl
  rw [relativeTo?]
  simp only [same, stays, decide_true, Bool.true_and, Bool.and_true, List.isPrefixOf_iff_prefix]
  constructor
  · intro seen
    split at seen
    · next begins =>
      cases seen
      obtain ⟨rest, parts⟩ := begins
      rw [← parts, List.drop_left]
      exact ⟨rfl, rfl⟩
    · cases seen
  · rintro ⟨relative, parts⟩
    rw [parts, if_pos (List.prefix_append _ _), List.drop_left, ← relative]

end Path

namespace FileTree

open RustLint.Path (isStep)

/-- Seen from the root it does not matter whether a path begins there. -/
theorem fromRoot_further (leading : Nat) (small : leading ≤ 1) (names : List String) :
    fromRoot ⟨1, []⟩ ((⟨leading, []⟩ : Path).further names) =
      ⟨1, Path.normalizeParts true [] names⟩ := by
  have either : leading = 0 ∨ leading = 1 := by omega
  rcases either with rfl | rfl
  · have relative := Path.normalizeParts_relative [] names
    exact congrArg (Path.mk 1) relative
  · rfl

/-- Without links the search for a file finds what is plain, or ends for another reason than too
many links. -/
def EndsPlain (found : Except PathError Entry) : Prop :=
  match found with
  | .ok e => e.IsPlain
  | .error e => e ≠ .tooManyLinks

theorem endsPlain_error (e : PathError) (other : e ≠ .tooManyLinks) : EndsPlain (.error e) := other

variable (tree : FileTree) (plain : tree.root.IsPlain)

include plain

theorem entry?_ne_link (names : List String) (target : String) :
    tree.entry? names ≠ some (.link target) := by
  intro leads
  have linkless := (plain.at? names _ leads).linkless
  simp [Entry.linkCount] at linkless

/-- Without links the names are taken in turn, up to one that no file can have. -/
theorem follow_eq (directory : Path) (following : List Path) (known : List (Path × Path))
    (place : Path) (normal : place.IsNormal) (todo : List String) :
    tree.follow directory 0 following known place todo =
      if todo.any Path.nameHasNull then .nameless
      else .arrived (place.further (todo.filter isStep)) known := by
  induction todo generalizing place with
  | nil =>
    have whole : place.further [] = place := by
      rw [Path.further, Path.normalizeParts.eq_1, List.reverse_reverse]
    rw [follow.eq_def, List.any_nil, if_neg Bool.false_ne_true, List.filter_nil, whole]
  | cons name todo ih =>
    rw [follow.eq_def, List.any_cons]
    dsimp only
    split
    · next still =>
      -- An empty name or a single dot leads nowhere.
      have stays : isStep name = false := by
        rw [isStep, ← Bool.not_eq_true', Bool.not_and]
        simpa using still
      have visible : Path.nameHasNull name = false := by
        rcases (by simpa using still : name = "" ∨ name = ".") with rfl | rfl <;> decide
      rw [ih place normal, visible, Bool.false_or, List.filter_cons_of_neg (by simp [stays])]
    next step =>
    have taken : isStep name = true := by
      rw [isStep]
      simpa using step
    rw [List.filter_cons_of_pos taken, Path.further_cons]
    split
    · next up =>
      subst up
      have visible : Path.nameHasNull ".." = false := by decide
      rw [ih place.up normal.up, visible, Bool.false_or, normal.up_eq]
    next other =>
    split
    · next null => rw [null, Bool.true_or, if_pos rfl]
    next named =>
    have visible : Path.nameHasNull name = false := Bool.eq_false_iff.mpr named
    have goes := ih (place.child name) (normal.child name other)
    rw [Path.child_eq place name other] at goes ⊢
    rw [visible, Bool.false_or, ← goes]
    split
    · next target link _ => exact absurd link (tree.entry?_ne_link plain _ target)
    · next target _ link _ => exact absurd link (tree.entry?_ne_link plain _ target)
    · rfl

theorem findFrom_endsPlain (links : Nat) (done todo : List String) :
    EndsPlain (tree.findFrom links done todo) := by
  induction todo generalizing done with
  | nil =>
    rw [findFrom.eq_def]
    dsimp only
    split
    · next e leads => exact plain.at? _ e leads
    · exact endsPlain_error _ (by decide)
  | cons name todo ih =>
    rw [findFrom.eq_def]
    dsimp only
    split
    · next entries leads =>
      have inside : (Entry.dir entries).IsPlain := plain.at? _ _ leads
      have noLink (target : String) : entries.lookup name ≠ some (.link target) := fun found => by
        have listed := (inside.child?_eq_some_iff name _).mp found
        exact absurd (inside.entry name _ listed).linkless (by simp [Entry.linkCount])
      split
      · exact ih done
      split
      · exact ih done.tail
      split
      · exact endsPlain_error _ (by decide)
      split
      · exact endsPlain_error _ (by decide)
      · next found => exact absurd found (noLink _)
      · next found => exact absurd found (noLink _)
      · exact ih (name :: done)
    · exact endsPlain_error _ (by decide)

theorem find_endsPlain (p : Path) : EndsPlain (tree.find p) := by
  rw [find]
  split
  · exact tree.findFrom_endsPlain plain maxLinks [] p.parts
  · exact endsPlain_error _ (by decide)

theorem isPlain_of_find (p : Path) (e : Entry) (found : tree.find p = .ok e) : e.IsPlain := by
  have ends := tree.find_endsPlain plain p
  rwa [found] at ends

theorem locate_eq (p : Path) : tree.locate ⟨1, []⟩ p.names =
    if p.hasNull then .error .nullCharacter else .ok p.seat := by
  have none : 2 * tree.root.linkCount = 0 := by rw [plain.linkless]
  have null : p.names.any Path.nameHasNull = p.hasNull := by
    rw [Path.names]
    split
    · rfl
    · rw [List.any_cons]
      rfl
  have steps : p.names.filter isStep = p.parts.filter isStep := by
    rw [Path.names]
    split
    · rfl
    · exact List.filter_cons_of_neg (by decide)
  obtain ⟨leading, begins, small⟩ :
      ∃ leading, start ⟨0, []⟩ p.names = ⟨leading, []⟩ ∧ leading ≤ 1 := by
    rw [start]
    split
    · exact ⟨1, rfl, Nat.le_refl 1⟩
    · exact ⟨0, rfl, Nat.zero_le 1⟩
  rw [locate, none, begins, tree.follow_eq plain _ _ _ ⟨leading, []⟩ rfl, null, steps]
  cases p.hasNull with
  | true => rfl
  | false => exact congrArg Except.ok (fromRoot_further leading small _)

/-- Without links a path has its place by its names alone. -/
theorem resolve_eq (p : Path) :
    tree.resolve p = if p.hasNull then .error .nullCharacter else .ok p.seat := by
  rw [resolve, tree.locate_eq plain]
  split
  · rfl
  · have ends := tree.find_endsPlain plain p.seat
    dsimp only [bind, Except.bind]
    cases found : tree.find p.seat with
    | ok e => rfl
    | error e =>
      rw [found] at ends
      cases e with
      | tooManyLinks => exact absurd rfl ends
      | missing | notDirectory | nameTooLong => rfl

end FileTree

end RustLint
