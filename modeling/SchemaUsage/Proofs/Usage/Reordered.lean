import SchemaUsage.Graphql.Reordered
import SchemaUsage.Proofs.Graphql.Normalized
import SchemaUsage.Usage.Collection

/-!
# Texts of documents with reordered selections

About `normalize_operation` and `print_operation`. The normal form of a document, and so its text,
tells nothing of the order in which fields and spreads are written, if the selections of each set
are told apart by their labels. Of inline fragments it does: any two of them compare equal, whatever
their type conditions are, and sorting is stable.

* Two selections compare equal when they have one label or are both inline fragments. So a selection
  set in another order is sorted alike exactly if its inline fragments keep their order.
* Normal forms keep labels, so the same is told of the sets within, by recursion on the selections.

Results:
- `Selection.compare_eq_iff`: which selections compare equal.
- `normalizeSelections_eq_iff`: a selection set in another order has the same normal form if and
  only if its inline fragments have one order at any depth.
- `text_reordered`: the same for documents, with their texts and keys.
-/

namespace SchemaUsage.Graphql

variable {α β : Type} {o : NormalOptions}

/-! ## Distinct labels -/

/-- Lists with the same images are the same where the images tell their members apart. -/
theorem eq_of_map_eq {f : α → β} {xs ys : List α} (images : xs.map f = ys.map f)
    (apart : ∀ x ∈ xs, ∀ y ∈ ys, f x = f y → x = y) : xs = ys := by
  induction xs generalizing ys with
  | nil => exact (List.map_eq_nil_iff.mp images.symm).symm
  | cons x xs ih =>
    obtain ⟨y, ys, rfl, same, images⟩ := List.map_eq_cons_iff.mp images.symm
    have head : x = y := apart x List.mem_cons_self y List.mem_cons_self same.symm
    have tail : xs = ys := ih images.symm fun a mem b mem' =>
      apart a (List.mem_cons_of_mem x mem) b (List.mem_cons_of_mem y mem')
    rw [head, tail]

/-- What has a given image is the same in any order of a list with distinct images. -/
theorem filter_eq_of_perm [DecidableEq β] {f : α → β} {xs ys : List α} (perm : xs.Perm ys)
    (distinct : (xs.map f).Nodup) (image : β) :
    (xs.filter fun x => f x = image) = ys.filter fun x => f x = image := by
  induction perm with
  | nil => rfl
  | cons a _ ih => rw [List.filter_cons, List.filter_cons, ih distinct.of_cons]
  | swap a b xs =>
    have apart : f b ≠ f a := List.rel_of_pairwise_cons distinct List.mem_cons_self
    by_cases first : f a = image
    · have second : f b ≠ image := first ▸ apart
      simp [first, second]
    · simp [first, List.filter_cons]
  | trans first _ ih ih' => exact (ih distinct).trans (ih' ((first.map f).nodup distinct))

/-! ## Selections that compare equal -/

/-- **Selections compare equal** if they have one label, and if they are both inline fragments. -/
theorem Selection.compare_eq_iff (a b : Selection) :
    a.compare b = .eq ↔ a.label = b.label ∨ a.isInline = true ∧ b.isInline = true := by
  cases a <;> cases b <;> simp [compare, label, isInline, rank]

/-- **Selections in two orders are sorted alike** if and only if their inline fragments have one
order. -/
theorem mergeSort_eq_iff_inlineLabels {selections others : List Selection}
    (perm : selections.Perm others) (labels : (selections.map Selection.label).Nodup) :
    selections.mergeSort Selection.le = others.mergeSort Selection.le ↔
      inlineLabels selections = inlineLabels others := by
  rw [funext₂ Selection.le_eq, mergeSort_eq_iff perm]
  constructor
  · intro stable
    have inline : (fun sel => (Selection.inline none [] []).compare sel == .eq) =
        Selection.isInline := by
      funext sel
      cases sel <;> rfl
    unfold inlineLabels
    rw [← inline, stable]
  · intro order a
    have same : selections.filter Selection.isInline = others.filter Selection.isInline :=
      eq_of_map_eq order fun x mem y mem' => List.inj_on_of_nodup_map labels
        (List.mem_of_mem_filter mem) (perm.mem_iff.mpr (List.mem_of_mem_filter mem'))
    cases inline : a.isInline with
    | true =>
      have equal : (fun sel => a.compare sel == .eq) = Selection.isInline := by
        funext sel
        cases a with
        | inline => cases sel <;> rfl
        | _ => cases inline
      rw [equal, same]
    | false =>
      have equal : (fun sel => a.compare sel == .eq) = fun sel => decide (sel.label = a.label) := by
        funext sel
        rw [Bool.eq_iff_iff, beq_iff_eq, decide_eq_true_eq, Selection.compare_eq_iff, inline,
          eq_comm]
        simp
      rw [equal, filter_eq_of_perm perm labels]

/-! ## Normal forms -/

theorem normalizeSelections_nil : normalizeSelections o [] = [] :=
  List.mergeSort_nil

/-- A new first selection is inserted into the normal form of the others. -/
theorem normalizeSelections_cons (sel : Selection) (selections : List Selection) :
    normalizeSelections o (sel :: selections) =
      (normalizeSelections o selections).orderedInsert (fun a b => a.le b = true)
        (sel.normalize o) :=
  mergeSort_cons_eq Selection.le_trans Selection.le_total (sel.normalize o) _

theorem Selection.label_normalize (sel : Selection) : (sel.normalize o).label = sel.label := by
  cases sel <;> rfl

theorem Selection.isInline_normalize (sel : Selection) :
    (sel.normalize o).isInline = sel.isInline := by
  cases sel <;> rfl

/-- Normal forms keep labels. -/
theorem labels_normalizeEach (selections : List Selection) :
    (normalizeEach o selections).map Selection.label = selections.map Selection.label := by
  rw [normalizeEach_eq_map, List.map_map]
  exact List.map_congr_left fun sel _ => sel.label_normalize

theorem inlineLabels_normalizeEach (selections : List Selection) :
    inlineLabels (normalizeEach o selections) = inlineLabels selections := by
  unfold inlineLabels
  rw [normalizeEach_eq_map, List.filter_map, List.map_map,
    List.filter_congr fun sel _ => sel.isInline_normalize]
  exact List.map_congr_left fun sel _ => sel.label_normalize

/-- Selection sets with one normal form have inline fragments in one order, and selections with one
label have one normal form. -/
theorem of_normalizeSelections_eq {selections others : List Selection}
    (labels : (selections.map Selection.label).Nodup)
    (same : normalizeSelections o selections = normalizeSelections o others) :
    inlineLabels selections = inlineLabels others ∧ ∀ sel ∈ selections, ∀ other ∈ others,
      sel.label = other.label → sel.normalize o = other.normalize o := by
  have perm : (normalizeEach o selections).Perm (normalizeEach o others) :=
    perm_of_mergeSort_eq same
  have distinct : ((normalizeEach o selections).map Selection.label).Nodup := by
    rwa [labels_normalizeEach]
  constructor
  · have order := (mergeSort_eq_iff_inlineLabels perm distinct).mp same
    rwa [inlineLabels_normalizeEach, inlineLabels_normalizeEach] at order
  · intro sel mem other mem' one
    rw [normalizeEach_eq_map, normalizeEach_eq_map] at perm
    rw [normalizeEach_eq_map] at distinct
    exact List.inj_on_of_nodup_map distinct (List.mem_map_of_mem mem)
      (perm.mem_iff.mpr (List.mem_map_of_mem mem'))
      (by rw [sel.label_normalize, other.label_normalize, one])

mutual
/-- Selections with one normal form keep the order of the inline fragments within them. -/
theorem Selection.inlineKept_of_normalize_eq : ∀ (sel other : Selection), sel.Separate →
    sel.normalize o = other.normalize o → sel.InlineKept other
  | .field _ _ _ _ selections, .field _ _ _ _ others, ⟨labels, separate⟩, same => by
    rw [Selection.normalize_field, Selection.normalize_field] at same
    injection same with _ _ _ _ nested
    obtain ⟨order, each⟩ := of_normalizeSelections_eq labels nested
    exact ⟨order, eachInlineKept_of_normalize_eq selections others separate each⟩
  | .inline _ _ selections, .inline _ _ others, ⟨labels, separate⟩, same => by
    rw [Selection.normalize_inline, Selection.normalize_inline] at same
    injection same with _ _ nested
    obtain ⟨order, each⟩ := of_normalizeSelections_eq labels nested
    exact ⟨order, eachInlineKept_of_normalize_eq selections others separate each⟩
  | .field .., .spread .., _, _ => trivial
  | .field .., .inline .., _, _ => trivial
  | .spread .., _, _, _ => trivial
  | .inline .., .field .., _, _ => trivial
  | .inline .., .spread .., _, _ => trivial
theorem eachInlineKept_of_normalize_eq : ∀ selections others : List Selection,
    EachSeparate selections →
    (∀ sel ∈ selections, ∀ other ∈ others, sel.label = other.label →
      sel.normalize o = other.normalize o) → EachInlineKept selections others
  | [], _, _, _ => trivial
  | sel :: selections, others, ⟨first, separate⟩, same =>
    ⟨fun other mem one => sel.inlineKept_of_normalize_eq other first
        (same sel List.mem_cons_self other mem one),
      eachInlineKept_of_normalize_eq selections others separate fun a mem =>
        same a (List.mem_cons_of_mem sel mem)⟩
end

theorem EachReordered.normalizeEach_eq : ∀ {moved others : List Selection},
    EachReordered moved others →
    (∀ sel ∈ moved, ∀ other ∈ others, sel.Reordered other →
      sel.normalize o = other.normalize o) → normalizeEach o moved = normalizeEach o others
  | _, _, .nil, _ => rfl
  | _, _, .cons first rest, same =>
    congrArg₂ List.cons (same _ List.mem_cons_self _ List.mem_cons_self first)
      (rest.normalizeEach_eq fun sel mem other mem' =>
        same sel (List.mem_cons_of_mem _ mem) other (List.mem_cons_of_mem _ mem'))

/-- A selection set in another order has the same normal form, if its inline fragments have one
order and this is so of each selection in it. -/
theorem SelectionsReordered.normalize_eq_of_each {selections others : List Selection}
    (h : SelectionsReordered selections others)
    (labels : (selections.map Selection.label).Nodup)
    (kept : SelectionsInlineKept selections others)
    (each : ∀ sel ∈ selections, ∀ other, sel.Reordered other → sel.InlineKept other →
      sel.normalize o = other.normalize o) :
    normalizeSelections o selections = normalizeSelections o others := by
  obtain ⟨moved, order, reordered⟩ := h
  have same : normalizeEach o moved = normalizeEach o others :=
    reordered.normalizeEach_eq fun sel mem other mem' within =>
      each sel (order.mem_iff.mpr mem) other within
        (eachInlineKept_iff.mp kept.2 sel (order.mem_iff.mpr mem) other mem' within.label_eq)
  have perm : (normalizeEach o selections).Perm (normalizeEach o others) := by
    rw [← same, normalizeEach_eq_map, normalizeEach_eq_map]
    exact order.map _
  refine (mergeSort_eq_iff_inlineLabels perm ?_).mpr ?_
  · rwa [labels_normalizeEach]
  · rw [inlineLabels_normalizeEach, inlineLabels_normalizeEach, kept.1]

mutual
/-- **Reordered selections have one normal form**, if inline fragments keep their order. -/
theorem Selection.normalize_eq_of_inlineKept : ∀ (sel other : Selection), sel.Reordered other →
    sel.Separate → sel.InlineKept other → sel.normalize o = other.normalize o
  | .field _ _ _ _ selections, _, .field _ _ _ _ order each, ⟨labels, separate⟩, kept => by
    rw [Selection.normalize_field, Selection.normalize_field,
      SelectionsReordered.normalize_eq_of_each ⟨_, order, each⟩ labels kept
        (each_normalize_eq_of_inlineKept selections separate)]
  | .spread _ _, _, .spread _ _, _, _ => rfl
  | .inline _ _ selections, _, .inline _ _ order each, ⟨labels, separate⟩, kept => by
    rw [Selection.normalize_inline, Selection.normalize_inline,
      SelectionsReordered.normalize_eq_of_each ⟨_, order, each⟩ labels kept
        (each_normalize_eq_of_inlineKept selections separate)]
theorem each_normalize_eq_of_inlineKept : ∀ selections : List Selection,
    EachSeparate selections → ∀ sel ∈ selections, ∀ other, sel.Reordered other →
      sel.InlineKept other → sel.normalize o = other.normalize o
  | [], _ => nofun
  | sel :: selections, ⟨first, separate⟩ => List.forall_mem_cons.mpr
    ⟨fun other reordered => sel.normalize_eq_of_inlineKept other reordered first,
      each_normalize_eq_of_inlineKept selections separate⟩
end

/-- **A selection set in another order has the same normal form** if and only if its inline
fragments have one order, at any depth. -/
theorem normalizeSelections_eq_iff {selections others : List Selection}
    (h : SelectionsReordered selections others) (separate : SelectionsSeparate selections) :
    normalizeSelections o selections = normalizeSelections o others ↔
      SelectionsInlineKept selections others := by
  constructor
  · intro same
    obtain ⟨order, each⟩ := of_normalizeSelections_eq separate.1 same
    exact ⟨order, eachInlineKept_of_normalize_eq selections others separate.2 each⟩
  · intro kept
    exact h.normalize_eq_of_each separate.1 kept
      (each_normalize_eq_of_inlineKept selections separate.2)

/-! ## Documents -/

theorem Definition.Reordered.selections {definition other : Definition}
    (h : definition.Reordered other) :
    SelectionsReordered definition.selections other.selections := by
  cases h <;> assumption

theorem Definition.Reordered.normalize_eq_iff {definition other : Definition}
    (h : definition.Reordered other) (separate : SelectionsSeparate definition.selections) :
    definition.normalize o = other.normalize o ↔
      SelectionsInlineKept definition.selections other.selections := by
  have members : definition.normalize o = other.normalize o ↔
      normalizeSelections o definition.selections = normalizeSelections o other.selections := by
    cases h <;> simp [Definition.normalize, Operation.normalize, Fragment.normalize,
      Definition.selections, Operation.selections]
  rw [members, normalizeSelections_eq_iff h.selections separate]

theorem Definition.Reordered.compare_normalize {definition other : Definition}
    (h : definition.Reordered other) :
    (definition.normalize o).compare (other.normalize o) = .eq := by
  cases h with
  | shorthand | full => rfl
  | fragment name =>
    have self : Ord.compare name name = .eq := Std.ReflOrd.compare_self
    exact self

/-- **Reordered documents have one normal form** if and only if inline fragments have one order. -/
theorem Document.Reordered.normalize_eq_iff {doc other : Document} (h : doc.Reordered other)
    (separate : doc.Separate) :
    doc.normalize o = Document.normalize o other ↔ doc.InlineKept other := by
  have members : doc.map (Definition.normalize o) = other.map (Definition.normalize o) ↔
      doc.InlineKept other := by
    induction h with
    | nil => exact iff_of_true rfl .nil
    | cons first _ ih =>
      obtain ⟨head, tail⟩ := List.forall_mem_cons.mp separate
      rw [List.map_cons, List.map_cons, List.cons.injEq, first.normalize_eq_iff head, ih tail]
      exact ⟨fun ⟨kept, others⟩ => .cons kept others, fun (.cons kept others) => ⟨kept, others⟩⟩
  rw [← members]
  constructor
  · intro same
    -- definitions that stand against each other compare equal, and sorting is stable
    have aligned : List.Forall₂ (Definition.compare · · = .eq)
        (doc.map (Definition.normalize o)) (other.map (Definition.normalize o)) := by
      rw [List.forall₂_map_left_iff, List.forall₂_map_right_iff]
      exact h.imp fun _ _ reordered => reordered.compare_normalize
    refine eq_of_aligned aligned ((mergeSort_eq_iff (perm_of_mergeSort_eq same)).mp ?_)
    rw [← funext₂ Definition.le_eq]
    exact same
  · intro same
    rw [Document.normalize, Document.normalize, same]

end SchemaUsage.Graphql

namespace SchemaUsage.Usage

open SchemaUsage.Graphql

/-! ## Texts and keys -/

/-- **Normal forms tell the order of inline fragments, and no other order of selections.** Documents
that differ in the order of selections, told apart by their labels, have one normal form if and only
if inline fragments have one order in each selection set. Then they have one text and one key. -/
theorem text_reordered {doc other : Document} (h : doc.Reordered other) (separate : doc.Separate)
    (o : NormalOptions) :
    (doc.normalize o = other.normalize o ↔ doc.InlineKept other) ∧
      (doc.InlineKept other → ∀ c : Collector, c.textAndKey doc = c.textAndKey other) := by
  refine ⟨h.normalize_eq_iff separate, fun kept c => ?_⟩
  unfold Collector.textAndKey
  rw [(h.normalize_eq_iff separate).mpr kept]

/-! ## A query for cats and dogs -/

/-- A field without arguments. -/
def plain (name : String) (selections : List Selection) : Selection :=
  .field none name [] [] selections

/-- What is asked of cats. -/
def catPart : Selection := .inline (some "Cat") [] [plain "name" [], plain "lives" []]

/-- What is asked of dogs. -/
def dogPart : Selection := .inline (some "Dog") [] [plain "owner" []]

/-- A query for pets with the given selections. -/
def petQuery (selections : List Selection) : Document :=
  [.operation (.shorthand [plain "pets" selections])]

/-- A query for pets that asks for a fragment, for cats, for dogs and for a field. -/
def mixedPets : Document :=
  petQuery [plain "id" [], catPart, .spread "Parts" [], dogPart]

/-- What is asked of cats, in another order. -/
def catPartReordered : Selection := .inline (some "Cat") [] [plain "lives" [], plain "name" []]

/-- The same query with selections in another order at two depths. -/
def mixedPetsReordered : Document :=
  petQuery [catPartReordered, dogPart, plain "id" [], .spread "Parts" []]

theorem plain_reordered {name : String} {selections others : List Selection}
    (h : SelectionsReordered selections others) :
    (plain name selections).Reordered (plain name others) := by
  obtain ⟨moved, order, each⟩ := h
  exact .field none name [] [] order each

theorem petQuery_reordered {selections others : List Selection}
    (h : SelectionsReordered selections others) :
    (petQuery selections).Reordered (petQuery others) :=
  .cons (.shorthand ⟨_, .refl _, .cons (plain_reordered h) .nil⟩) .nil

theorem catPart_reordered : catPart.Reordered catPartReordered :=
  .inline _ _ (.swap _ _ []) (EachReordered.refl _)

theorem mixedPets_reordered : mixedPets.Reordered mixedPetsReordered := by
  -- the cats and the dogs come first, the others keep their order
  have order : [plain "id" [], catPart, .spread "Parts" [], dogPart].Perm
      [catPart, dogPart, plain "id" [], .spread "Parts" []] :=
    (List.Perm.swap _ _ _).trans (.cons _ ((List.Perm.cons _ (.swap _ _ _)).trans (.swap _ _ _)))
  exact petQuery_reordered ⟨_, order, .cons catPart_reordered (EachReordered.refl _)⟩

theorem normalize_plain (name : String) (selections : List Selection) :
    (plain name selections).normalize {} = plain name (normalizeSelections {} selections) := by
  rw [plain, Selection.normalize_field]
  simp [plain, normalizeArguments, normalizeDirectives, normalizeFields, sortByName]

theorem normalize_inline_plain (cond : Option String) (selections : List Selection) :
    (Selection.inline cond [] selections).normalize {} =
      .inline cond [] (normalizeSelections {} selections) := by
  rw [Selection.normalize_inline]
  simp [normalizeDirectives, sortByName]

theorem normalize_spread_plain (name : String) :
    (Selection.spread name []).normalize {} = .spread name [] := by
  simp [Selection.normalize, normalizeDirectives, sortByName]

theorem normalize_catPart : catPart.normalize {} = catPartReordered := by
  simp only [catPart, normalize_inline_plain, normalize_plain, normalizeSelections_cons,
    normalizeSelections_nil]
  rfl

theorem normalize_dogPart : dogPart.normalize {} = dogPart := by
  simp only [dogPart, normalize_inline_plain, normalize_plain, normalizeSelections_cons,
    normalizeSelections_nil]
  rfl

theorem normalize_petQuery (selections : List Selection) :
    (petQuery selections).normalize {} = petQuery (normalizeSelections {} selections) := by
  simp [petQuery, Document.normalize, Definition.normalize, Operation.normalize,
    normalizeSelections_cons, normalizeSelections_nil, normalize_plain]

theorem text_reordered_pets :
    mixedPets.Reordered mixedPetsReordered ∧ mixedPets.Separate ∧
      mixedPets.InlineKept mixedPetsReordered ∧
      mixedPets.normalize {} = mixedPetsReordered.normalize {} ∧
      mixedPetsReordered.normalize {} =
        petQuery [.spread "Parts" [], catPartReordered, dogPart, plain "id" []] := by
  have separate : mixedPets.Separate := by decide
  have kept : mixedPets.InlineKept mixedPetsReordered := by decide
  have same := (text_reordered mixedPets_reordered separate {}).1.mpr kept
  refine ⟨mixedPets_reordered, separate, kept, same, ?_⟩
  rw [← same, mixedPets, normalize_petQuery]
  simp only [normalizeSelections_cons, normalizeSelections_nil, normalize_plain,
    normalize_spread_plain, normalize_catPart, normalize_dogPart]
  rfl

/-- The order of inline fragments is told, also of those with different type conditions. -/
theorem inline_order_told :
    (petQuery [catPart, dogPart]).Reordered (petQuery [dogPart, catPart]) ∧
      (petQuery [catPart, dogPart]).Separate ∧
      (petQuery [catPart, dogPart]).normalize {} ≠ (petQuery [dogPart, catPart]).normalize {} ∧
      ((petQuery [catPart, dogPart]).normalize {}).compactText =
        .ok "\x7bpets\x7b...on Cat\x7blives name\x7d...on Dog\x7bowner\x7d\x7d\x7d" ∧
      ((petQuery [dogPart, catPart]).normalize {}).compactText =
        .ok "\x7bpets\x7b...on Dog\x7bowner\x7d...on Cat\x7blives name\x7d\x7d\x7d" := by
  have swapped : SelectionsReordered [catPart, dogPart] [dogPart, catPart] :=
    ⟨_, .swap _ _ [], EachReordered.refl _⟩
  have first : ((petQuery [catPart, dogPart]).normalize {}).compactText =
      .ok "\x7bpets\x7b...on Cat\x7blives name\x7d...on Dog\x7bowner\x7d\x7d\x7d" := by
    have normal : (petQuery [catPart, dogPart]).normalize {} =
        petQuery [catPartReordered, dogPart] := by
      rw [normalize_petQuery, normalizeSelections_cons, normalizeSelections_cons,
        normalizeSelections_nil, normalize_catPart, normalize_dogPart]
      rfl
    rw [normal]
    exact (Document.compactText_eq_ok_iff _ _).mpr ⟨by decide, rfl⟩
  have second : ((petQuery [dogPart, catPart]).normalize {}).compactText =
      .ok "\x7bpets\x7b...on Dog\x7bowner\x7d...on Cat\x7blives name\x7d\x7d\x7d" := by
    have normal : (petQuery [dogPart, catPart]).normalize {} =
        petQuery [dogPart, catPartReordered] := by
      rw [normalize_petQuery, normalizeSelections_cons, normalizeSelections_cons,
        normalizeSelections_nil, normalize_catPart, normalize_dogPart]
      rfl
    rw [normal]
    exact (Document.compactText_eq_ok_iff _ _).mpr ⟨by decide, rfl⟩
  refine ⟨petQuery_reordered swapped, by decide, ?_, first, second⟩
  intro same
  rw [same, second] at first
  exact absurd (Except.ok.inj first) (by decide)

end SchemaUsage.Usage
