import SchemaUsage.Proofs.Usage.Remembering
import SchemaUsage.Proofs.Usage.Uses

/-!
# Which texts a processor skips

About `is_introspection` in `OperationProcessor::transform`. A processor skips texts that only ask
for the schema. It tells them by their first operation, while the usage of a document is that of all
its operations and fragments. The two views agree on a document whose operations are alike in this,
in particular on one with a single operation. Where an operation that asks for the schema stands in
front of ordinary ones, these are skipped along with it, and what they use is not reported.

* `Skips` says that a text is answered without a record and without an error.

Results:
- `uses_of_introspecting`: what a document of such operations uses besides its fragments.
- `skips_by_first`: a text is skipped if and only if its first operation only asks for the schema.
- `ordinary_operation_skipped`: an operation that is skipped though it has a usage.
-/

namespace SchemaUsage.Usage

open SchemaUsage.Graphql

variable {s : Schema} {strategy : Strategy} {doc : Document}

/-! ## What is not reported -/

/-- **Operations that ask for the schema use next to nothing**: besides its fragments, such a
document uses the names of types and what its variables give. -/
theorem uses_of_introspecting (introspect : ∀ op ∈ doc.operations, op.OnlyIntrospects) {m : Mark}
    (used : Uses s strategy doc m) :
    (∃ type, m = .identifier (fieldId type "__typename")) ∨
      (∃ op ∈ doc.operations, ∃ v ∈ op.variableList, VariableGives s strategy v m) ∨
      ∃ frag ∈ doc.fragments, DefinitionGives s strategy m (.fragment frag) := by
  obtain ⟨definition, mem, gives⟩ := uses_iff.mp used
  cases definition with
  | fragment frag => exact .inr (.inr ⟨frag, Document.mem_fragments.mpr mem, gives⟩)
  | operation op =>
    have listed : op ∈ doc.operations := Document.mem_operations.mpr mem
    obtain ⟨v, declared, gives⟩ | ⟨t, -, sel, selected, gives⟩ := gives
    · exact .inr (.inl ⟨op, listed, v, declared, gives⟩)
    · cases (introspect op listed).picks sel selected with
      | @field _ name _ _ _ special =>
        have known : name ∈ metaFields := by
          simpa [metaFields, or_comm, or_assoc, or_left_comm] using special
        obtain ⟨rfl, rfl⟩ := (selectionGivesSome_meta known m).mp gives
        exact .inl ⟨t.name, rfl⟩

/-! ## Skipped texts -/

namespace Processor

/-- A text is answered without a record and without an error. -/
def Skips (p : Processor) (text : String) (supplied : Option VariableValues) : Prop :=
  (p.process text supplied).1 = .ok none

theorem processText_eq_none {c : Collector} {text : String} {supplied : Option VariableValues}
    (parsed : Document.parse? text = some doc) :
    c.processText text supplied = .ok none ↔ doc.isIntrospection = true := by
  unfold Collector.processText
  rw [parsed]
  dsimp only
  split
  · simp_all
  · split <;> simp_all

/-- Whatever a processor remembers, it skips what a fresh one skips. -/
theorem Sound.skips_iff {c : Collector} {p : Processor} (sound : Sound c p) (text : String)
    (supplied : Option VariableValues) :
    p.Skips text supplied ↔ c.processText text supplied = .ok none := by
  rw [← (p.does_process ⟨text, supplied⟩ usage).shown_eq sound .marks, Skips]
  cases (p.process text supplied).1 with
  | error e => simp [shown, Except.map]
  | ok answer => simp [shown, Except.map]

theorem isIntrospection_iff {first : Operation} {others : List Operation}
    (operations : doc.operations = first :: others) :
    doc.isIntrospection = true ↔ first.OnlyIntrospects := by
  unfold Document.isIntrospection Document.firstOperation?
  rw [operations, List.head?_cons]
  exact Operation.isIntrospection_iff

/-- **A text is skipped if and only if its first operation only asks for the schema**, whatever the
processor has been asked before. This is the same as all of its operations doing so if and only if
the first one does not do so without the others. What is skipped of a document of such operations
is the names of types, and what variables and fragments give. -/
theorem skips_by_first (c : Collector) (calls : List Call) {text : String}
    (supplied : Option VariableValues) (parsed : Document.parse? text = some doc)
    {first : Operation} {others : List Operation}
    (operations : doc.operations = first :: others) :
    (((fresh c).run calls).2.Skips text supplied ↔ first.OnlyIntrospects) ∧
      ((((fresh c).run calls).2.Skips text supplied ↔
          ∀ op ∈ doc.operations, op.OnlyIntrospects) ↔
        (first.OnlyIntrospects → ∀ op ∈ others, op.OnlyIntrospects)) ∧
      ((∀ op ∈ doc.operations, op.OnlyIntrospects) →
        ∀ strategy m, Uses c.schema strategy doc m →
          (∃ type, m = .identifier (fieldId type "__typename")) ∨
          (∃ op ∈ doc.operations, ∃ v ∈ op.variableList, VariableGives c.schema strategy v m) ∨
          ∃ frag ∈ doc.fragments, DefinitionGives c.schema strategy m (.fragment frag)) := by
  have skips : ((fresh c).run calls).2.Skips text supplied ↔ first.OnlyIntrospects := by
    rw [(run_sound (sound_fresh c) calls).skips_iff, processText_eq_none parsed,
      isIntrospection_iff operations]
  refine ⟨skips, ?_, fun introspect strategy m => uses_of_introspecting introspect⟩
  rw [skips, operations, List.forall_mem_cons]
  exact ⟨fun same introspects => (same.mp introspects).2,
    fun others => ⟨fun introspects => ⟨introspects, others introspects⟩, And.left⟩⟩

/-- A text whose only operation asks for the schema, besides the name of the root type. -/
def introspectingText : String := "query S\x7b__typename __schema\x7b__typename\x7d\x7d"

/-- The operation of `introspectingText`. -/
def introspectingOperation : Operation :=
  .full .query (some "S") [] [] [.field none "__typename" [] [] [],
    .field none "__schema" [] [] [.field none "__typename" [] [] []]]

theorem skips_by_first_introspectingText :
    Document.parse? introspectingText = some [.operation introspectingOperation] ∧
      introspectingOperation.OnlyIntrospects ∧
      ((fresh pairCollector).run pairCalls).2.Skips introspectingText (some []) := by
  have parsed : Document.parse? introspectingText =
      some [.operation introspectingOperation] := by cbv
  have introspects : introspectingOperation.OnlyIntrospects :=
    Operation.isIntrospection_iff.mp rfl
  have skipped := (skips_by_first pairCollector pairCalls (some []) parsed rfl).1
  exact ⟨parsed, introspects, skipped.mpr introspects⟩

/-- A text with an operation that asks for the schema and an ordinary one behind it. -/
def mixedText : String := "query A\x7b__schema\x7b__typename\x7d\x7dquery B\x7ba\x7d"

/-- The document of `mixedText`. -/
def mixedDocument : Document :=
  [.operation (.full .query (some "A") [] []
      [.field none "__schema" [] [] [.field none "__typename" [] [] []]]),
    .operation (.full .query (some "B") [] [] [.field none "a" [] [] []])]

/-- **An ordinary operation is skipped** together with the one in front of it, though it does not
ask for the schema and though the document has a usage. -/
theorem ordinary_operation_skipped :
    Document.parse? mixedText = some mixedDocument ∧
      (fresh pairCollector).Skips mixedText none ∧
      ¬ (∀ op ∈ mixedDocument.operations, op.OnlyIntrospects) ∧
      usage pairCollector.schema .wholeTypes mixedDocument = .ok ["Query.a"] := by
  have parsed : Document.parse? mixedText = some mixedDocument := by cbv
  refine ⟨parsed, ?_, fun introspect => ?_, by cbv⟩
  · have skipped : pairCollector.processText mixedText none = .ok none :=
      (processText_eq_none parsed).mpr rfl
    exact ((sound_fresh pairCollector).skips_iff _ _).mpr skipped
  · have ordinary := Operation.isIntrospection_iff.mpr (introspect _ (List.mem_cons_of_mem _
      List.mem_cons_self))
    cases ordinary

end Processor

end SchemaUsage.Usage
