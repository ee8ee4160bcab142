import Mathlib
import IrStream.Proofs.Link.UnitTables
import IrStream.Proofs.Section.Archive

/-!
Section names. The declarations and call-graph sections of a unit have fixed
names, and a function body's section is the common prefix followed by the
function's link-time name, with nothing escaped. Reading a name back
(`SectionName.kind?`) tries the two fixed names first, so a body whose
function is called `.decls` or `.cgraph` carries the fixed section's very name
and reads back as that section (`kind?_body`, `bodyNamedDecls_kind`); every
other non-empty function name reads back as a body.

Writing a unit does not let that collision through: the archive refuses a
second section under a name it already stores, so a unit that is written has
no body section under a fixed name (`writeUnit_bodies_unlike_fixed`).
-/

namespace IrStream

namespace SectionName

theorem decls_eq : decls = pref ++ ".decls" := rfl

theorem kind?_decls : kind? decls = some .decls := by decide

theorem kind?_cgraph : kind? cgraph = some .cgraph := by decide

theorem cgraph_eq : cgraph = pref ++ ".cgraph" := rfl

theorem startsWith_pref (function : String) : (pref ++ function).startsWith pref = true := by
  simp [String.toList_append]

/-- What a body section's name reads back as: one of the fixed sections when
the function is named like it, nothing for the bare prefix, else a body. -/
theorem kind?_body (function : String) :
    kind? (pref ++ function) =
      if function = ".decls" then some .decls
      else if function = ".cgraph" then some .cgraph
      else if function = "" then none
      else some .functionBody := by
  have longer : pref.length < (pref ++ function).length ↔ function ≠ "" := by
    rw [String.length_append, Nat.lt_add_right_iff_pos, Nat.pos_iff_ne_zero, ne_eq,
      String.length_eq_zero_iff]
  unfold kind?
  by_cases named_decls : function = ".decls"
  · simp [named_decls, decls_eq]
  by_cases named_cgraph : function = ".cgraph"
  · simp [named_cgraph, decls_eq, cgraph_eq]
  simp only [decls_eq, cgraph_eq, beq_iff_eq, String.append_right_inj, named_decls, named_cgraph,
    if_false, startsWith_pref, Bool.true_and, decide_eq_true_eq, gt_iff_lt, longer, ite_not]

/-- A function called `.decls` gets the declarations section's name, and its
body section reads back as the declarations section. -/
theorem bodyNamedDecls_kind :
    ofKind .functionBody (some ".decls") = decls ∧
      kind? (ofKind .functionBody (some ".decls")) = some .decls := by
  decide

end SectionName

/-- The last two sections of a written unit, the call graph and the declaration
tables, are stored under names that no section before them has. -/
theorem Program.writeUnit_fixed_fresh {P : Program} {options : LinkOptions}
    {set : Option (List CgNodeId)} {sink archive : Archive}
    (written : P.writeUnit options set sink = .ok archive) :
    ∃ (before : Archive) (graph tables : ByteArray),
      archive.sections =
        before.sections ++ [(SectionName.cgraph, graph), (SectionName.decls, tables)] ∧
      SectionName.cgraph ∉ before.sections.map (·.1) ∧
      SectionName.decls ∉ before.sections.map (·.1) := by
  unfold Program.writeUnit at written
  obtain ⟨⟨_, _, before⟩, -, written⟩ := Except.exists_of_bind_eq_ok written
  obtain ⟨⟨graph, _⟩, -, written⟩ := Except.exists_of_bind_eq_ok written
  obtain ⟨_, emitted, written⟩ := Except.exists_of_bind_eq_ok written
  obtain ⟨⟨tables, _⟩, -, written⟩ := Except.exists_of_bind_eq_ok written
  obtain ⟨-, freshGraph, rfl⟩ := Archive.emit_ok (Except.mapError_eq_ok emitted)
  obtain ⟨-, freshTables, rfl⟩ := Archive.emit_ok (Except.mapError_eq_ok written)
  rw [Archive.section?_eq_none_iff] at freshGraph freshTables
  refine ⟨before, graph, tables, by simp, freshGraph, fun stored => freshTables ?_⟩
  simp only [List.map_append, List.mem_append]
  exact Or.inl stored

/-- A written unit's body sections are named by their functions, and no
function among them is called `.decls` or `.cgraph`: the archive would have
refused the fixed section written after it. -/
theorem Program.writeUnit_bodies_unlike_fixed {P : Program} {options : LinkOptions}
    {set : Option (List CgNodeId)} {sink archive : Archive}
    (written : P.writeUnit options set sink = .ok archive) :
    ∃ (bodies : List (String × ByteArray)) (graph tables : ByteArray),
      archive.sections =
        sink.sections ++ bodies ++ [(SectionName.cgraph, graph), (SectionName.decls, tables)] ∧
      ∀ s ∈ bodies, ∃ name, s.1 = SectionName.ofKind .functionBody (some name) ∧
        name ≠ ".decls" ∧ name ≠ ".cgraph" := by
  obtain ⟨_, _, graph, _, tables, _, _, _, _, _, _, bodies, sections, each⟩ :=
    Program.writeUnit_sections written
  obtain ⟨before, graph', tables', sections', freshGraph, freshTables⟩ :=
    Program.writeUnit_fixed_fresh written
  -- the sections before the last two are the sink's and the bodies
  have front : before.sections = sink.sections ++ bodies := by
    rw [sections] at sections'
    exact (List.append_inj' sections' rfl).1.symm
  refine ⟨bodies, graph, tables, sections, fun s member => ?_⟩
  obtain ⟨-, -, name, -, -, -, -, named, -⟩ := each s member
  have stored : s.1 ∈ before.sections.map (·.1) := by
    rw [front]
    exact List.mem_map_of_mem (List.mem_append_right _ member)
  refine ⟨name, named, fun called => freshTables ?_, fun called => freshGraph ?_⟩
  · rwa [named, called] at stored
  · rwa [named, called] at stored

/-- Section names read back as their kind for the fixed sections, and for a
body whenever its function's name is neither empty nor that of a fixed
section; a body named `.decls` or `.cgraph` reads back as the fixed section.
A written unit never holds a body section under a fixed name. -/
theorem section_names_read_back :
    (∀ function, SectionName.kind? (SectionName.ofKind .decls function) = some .decls) ∧
    (∀ function, SectionName.kind? (SectionName.ofKind .cgraph function) = some .cgraph) ∧
    (∀ function : String, SectionName.kind? (SectionName.ofKind .functionBody (some function)) =
      if function = ".decls" then some .decls
      else if function = ".cgraph" then some .cgraph
      else if function = "" then none
      else some .functionBody) ∧
    (∀ (P : Program) options set sink archive, P.writeUnit options set sink = .ok archive →
      ∃ (bodies : List (String × ByteArray)) (graph tables : ByteArray),
        archive.sections =
          sink.sections ++ bodies ++ [(SectionName.cgraph, graph), (SectionName.decls, tables)] ∧
        ∀ s ∈ bodies, ∃ name, s.1 = SectionName.ofKind .functionBody (some name) ∧
          name ≠ ".decls" ∧ name ≠ ".cgraph") :=
  ⟨fun _ => SectionName.kind?_decls, fun _ => SectionName.kind?_cgraph, SectionName.kind?_body,
    fun _ _ _ _ _ written => Program.writeUnit_bodies_unlike_fixed written⟩

end IrStream
