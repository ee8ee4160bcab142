import Mathlib
import IrStream.Proofs.Flags
import IrStream.Flags.Side

/-!
The flag tables of the codec name distinct attributes, so every flag word
they pack unpacks to the attributes it was packed from. `Flags.Distinct`
asks two things of a table: each field reads back every number that fits its
width, and setting one field leaves what every other field reads as it was.
Both are checked here table by table, by reduction of the record updates the
fields are made of:

* `TreeFlags.declTables_distinct`, `TreeFlags.otherTables_distinct`: the
  tables a declaration can stream, in packing order, and those of every other
  node. They are kept apart because the type and declaration tables share
  `user_align` (`TreeFlags.typeGroup_declGroup_not_distinct`);
* `TreeFlags.streamed_distinct`: every code streams a sub-list of one of the
  two (`TreeFlags.groups_sublist`);
* the side tables of bodies, statements and call-graph nodes and edges;
* `Flags.packing_inverse`: packing and unpacking are inverse on every such
  table, and every code's word leaves room for the four position bits.
-/

namespace IrStream

namespace TreeFlags

/-- The tables a declaration can stream, in the order codes pack them. -/
theorem declTables_distinct : Flags.Distinct
    [commonGroup, declGroup, linkageGroup, functionGroup, fieldGroup, labelGroup, parmGroup].flatten := by
  constructor
  · simp only [commonGroup, declGroup, linkageGroup, functionGroup, fieldGroup, labelGroup,
      parmGroup, List.flatten_cons, List.flatten_nil, List.cons_append, List.nil_append,
      List.append_nil, List.forall_mem_cons, List.not_mem_nil, IsEmpty.forall_iff, implies_true,
      and_true]
    and_intros
    -- every flag reads back; what is left are the enumerations, each at most a byte wide
    all_goals try exact FlagField.bool_lawful _ fun _ _ => rfl
    all_goals exact FlagField.byte_lawful _ (by decide) fun _ _ => rfl
  · -- setting one record field leaves every other as it was, pair by pair
    simp only [commonGroup, declGroup, linkageGroup, functionGroup, fieldGroup, labelGroup,
      parmGroup, List.flatten_cons, List.flatten_nil, List.cons_append, List.nil_append,
      List.append_nil, List.pairwise_cons, List.mem_cons, List.not_mem_nil, forall_eq_or_imp,
      or_false, forall_eq, List.Pairwise.nil, and_true, IsEmpty.forall_iff, implies_true]
    and_intros <;> exact fun _ _ => rfl

/-- The tables every other node can stream, in the order codes pack them. -/
theorem otherTables_distinct :
    Flags.Distinct [commonGroup, ssaGroup, typeGroup, constantGroup, exprGroup].flatten := by
  constructor
  · simp only [commonGroup, ssaGroup, typeGroup, constantGroup, exprGroup, List.flatten_cons,
      List.flatten_nil, List.cons_append, List.nil_append, List.append_nil, List.forall_mem_cons,
      List.not_mem_nil, IsEmpty.forall_iff, implies_true, and_true]
    and_intros <;> exact FlagField.bool_lawful _ fun _ _ => rfl
  · simp only [commonGroup, ssaGroup, typeGroup, constantGroup, exprGroup, List.flatten_cons,
      List.flatten_nil, List.cons_append, List.nil_append, List.append_nil, List.pairwise_cons,
      List.mem_cons, List.not_mem_nil, forall_eq_or_imp, or_false, forall_eq, List.Pairwise.nil,
      and_true, IsEmpty.forall_iff, implies_true]
    and_intros <;> exact fun _ _ => rfl

/-- The type and declaration tables both hold `user_align`, so no table list
may hold both. -/
theorem typeGroup_declGroup_not_distinct : ¬ Flags.Distinct (typeGroup ++ declGroup) := by
  intro distinct
  have twice := (List.pairwise_append.1 distinct.apart).2.2 userAlignField (by simp [typeGroup])
    userAlignField (by simp [declGroup])
  have reads := twice.1 {} 1
  simp [userAlignField, FlagField.bool] at reads

/-- Every code streams, in order, some of the tables of one of the two lists. -/
theorem groups_sublist (code : TreeCode) :
    List.Sublist (groups code)
        [commonGroup, declGroup, linkageGroup, functionGroup, fieldGroup, labelGroup, parmGroup] ∨
      List.Sublist (groups code) [commonGroup, ssaGroup, typeGroup, constantGroup, exprGroup] := by
  rcases groups_cases code with h | h | h | h | h | h | h | h | h | h | h <;> rw [h]
  · exact .inl (.cons_cons _ (.cons_cons _ (.cons_cons _ (.cons_cons _ (List.nil_sublist _)))))
  · exact .inl (.cons_cons _ (.cons_cons _ (.cons_cons _ (List.nil_sublist _))))
  · exact .inl (.cons_cons _ (.cons_cons _ (.cons _ (.cons _ (.cons_cons _ (List.nil_sublist _))))))
  · exact .inl (.cons_cons _ (.cons_cons _ (.cons _ (.cons _ (.cons _
      (.cons_cons _ (List.nil_sublist _)))))))
  · exact .inl (.cons_cons _ (.cons_cons _ (.cons _ (.cons _ (.cons _ (.cons _
      (.cons_cons _ (List.nil_sublist _))))))))
  · exact .inr (.cons_cons _ (.cons_cons _ (List.nil_sublist _)))
  · exact .inl (.cons_cons _ (.cons_cons _ (List.nil_sublist _)))
  · exact .inr (.cons_cons _ (.cons _ (.cons_cons _ (List.nil_sublist _))))
  · exact .inr (.cons_cons _ (.cons _ (.cons _ (.cons_cons _ (List.nil_sublist _)))))
  · exact .inr (.cons_cons _ (.cons _ (.cons _ (.cons _ (.cons_cons _ (List.nil_sublist _))))))
  · exact .inl (.cons_cons _ (List.nil_sublist _))

theorem streamed_distinct (code : TreeCode) : Flags.Distinct (streamed code) := by
  unfold streamed
  rcases groups_sublist code with sub | sub
  · exact Flags.Distinct.sublist declTables_distinct (List.Sublist.flatten sub)
  · exact Flags.Distinct.sublist otherTables_distinct (List.Sublist.flatten sub)

end TreeFlags

theorem FunctionFlags.fields_distinct : Flags.Distinct FunctionFlags.fields := by
  constructor
  · simp only [fields, List.forall_mem_cons, List.not_mem_nil, IsEmpty.forall_iff, implies_true,
      and_true]
    and_intros
    -- the flags, then the frequency and the two `va_list` sizes
    all_goals try exact FlagField.bool_lawful _ fun _ _ => rfl
    all_goals exact FlagField.byte_lawful _ (by decide) fun _ _ => rfl
  · simp only [fields, List.pairwise_cons, List.mem_cons, List.not_mem_nil, forall_eq_or_imp,
      or_false, forall_eq, List.Pairwise.nil, and_true, IsEmpty.forall_iff, implies_true]
    and_intros <;> exact fun _ _ => rfl

theorem StmtFlags.fields_distinct : Flags.Distinct StmtFlags.fields := by
  constructor
  · simp only [fields, List.forall_mem_cons, List.not_mem_nil, IsEmpty.forall_iff, implies_true,
      and_true]
    and_intros <;> exact FlagField.bool_lawful _ fun _ _ => rfl
  · simp only [fields, List.pairwise_cons, List.mem_cons, List.not_mem_nil, or_false, forall_eq,
      List.Pairwise.nil, and_true, IsEmpty.forall_iff, implies_true]
    and_intros <;> exact fun _ _ => rfl

theorem CgraphFlags.fields_distinct : Flags.Distinct CgraphFlags.fields := by
  constructor
  · simp only [fields, List.forall_mem_cons, List.not_mem_nil, IsEmpty.forall_iff, implies_true,
      and_true]
    and_intros <;> exact FlagField.bool_lawful _ fun _ _ => rfl
  · simp only [fields, List.pairwise_cons, List.mem_cons, List.not_mem_nil, forall_eq_or_imp,
      or_false, forall_eq, List.Pairwise.nil, and_true, IsEmpty.forall_iff, implies_true]
    and_intros <;> exact fun _ _ => rfl

theorem EdgeFlags.fields_distinct : Flags.Distinct EdgeFlags.fields := by
  constructor
  · simp only [fields, List.forall_mem_cons, List.not_mem_nil, IsEmpty.forall_iff, implies_true,
      and_true]
    and_intros <;> exact FlagField.bool_lawful _ fun _ _ => rfl
  · simp only [fields, List.pairwise_cons, List.mem_cons, List.not_mem_nil, or_false, forall_eq,
      List.Pairwise.nil, and_true, IsEmpty.forall_iff, implies_true]
    and_intros <;> exact fun _ _ => rfl

namespace Flags

/-- Flag packing is invertible. On a table whose fields name distinct
attributes (a list of tables is packed as their concatenation), unpacking a
packed value gives every attribute of the table the value's number cut to its
width, and every attribute no field touches the number of the record unpacked
into; and every word that fits the table's width is the packing of what it
unpacks to. Every table list a tree code streams is such a table, and so are
the tables of function bodies, statements and call-graph nodes and edges; and
every code's word fits in 60 bits, beside the four position bits. -/
theorem packing_inverse :
    (∀ {ρ : Type} (fields : List (FlagField ρ)), Distinct fields → ∀ value base : ρ,
      (∀ f ∈ fields, f.get (unpack fields (pack fields value) base) = f.get value % 2 ^ f.width) ∧
      (∀ g : FlagField ρ, (∀ f ∈ fields, f.Untouched g) →
        g.get (unpack fields (pack fields value) base) = g.get base) ∧
      ∀ word < 2 ^ width fields, pack fields (unpack fields word base) = word) ∧
    (∀ code, Distinct (TreeFlags.streamed code) ∧ width (TreeFlags.streamed code) ≤ 60) ∧
    Distinct FunctionFlags.fields ∧ Distinct StmtFlags.fields ∧ Distinct CgraphFlags.fields ∧
    Distinct EdgeFlags.fields := by
  refine ⟨fun fields distinct value base => ⟨fun f member => ?_, fun g untouched => ?_,
    fun word small => pack_unpack distinct small base⟩, fun code => ⟨TreeFlags.streamed_distinct code,
    (TreeFlags.width_streamed_le code).trans (by norm_num)⟩, FunctionFlags.fields_distinct,
    StmtFlags.fields_distinct, CgraphFlags.fields_distinct, EdgeFlags.fields_distinct⟩
  · exact get_unpack_pack distinct member value base
  · exact get_unpack_of_untouched untouched _ base

/-- A function declaration's table list, the widest, meets the hypothesis. -/
theorem functionDecl_packing_inverse :
    Distinct (TreeFlags.streamed .functionDecl) ∧ ∀ value base : TreeFlags,
      (∀ f ∈ TreeFlags.streamed .functionDecl,
        f.get (unpack (TreeFlags.streamed .functionDecl) (pack (TreeFlags.streamed .functionDecl) value)
          base) = f.get value % 2 ^ f.width) ∧
      (∀ g : FlagField TreeFlags, (∀ f ∈ TreeFlags.streamed .functionDecl, f.Untouched g) →
        g.get (unpack (TreeFlags.streamed .functionDecl) (pack (TreeFlags.streamed .functionDecl) value)
          base) = g.get base) ∧
      ∀ word < 2 ^ width (TreeFlags.streamed .functionDecl),
        pack (TreeFlags.streamed .functionDecl) (unpack (TreeFlags.streamed .functionDecl) word base) =
          word :=
  ⟨(packing_inverse.2.1 .functionDecl).1,
    packing_inverse.1 _ (packing_inverse.2.1 .functionDecl).1⟩

end Flags

end IrStream
