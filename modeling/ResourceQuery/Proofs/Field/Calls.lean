import Mathlib.Data.List.Basic
import ResourceQuery.Field.Selection
import ResourceQuery.Proofs.Outcome
import ResourceQuery.Proofs.Text.Trim

/-!
# Names that are calls

A field name that calls a function of an argument is an aggregate, and every other name is that of
a field. One line end after a call is overlooked, and only there two names have one reading.

* `AggregateFunction.IsCall`: the calls of a function;
* `AggregateFunction.IsCall.unique`: a name is no more than one call;
* `SelectedField.callOf?_eq_some`, `SelectedField.aggregate_ofName`: the names that are read as
  aggregates;
* `FieldCompiler.LooksUp`: what the name of a field is looked up as;
* `SelectedField.classified_iff`: the names that are read as what they are.
-/

namespace ResourceQuery

open Text

/-! ## Calls -/

namespace AggregateFunction

/-- Whether a name is a call of a function: the function, and in parentheses behind it an argument
that is not empty and has no line end. -/
structure IsCall (f : AggregateFunction) (argument name : String) : Prop where
  ne_empty : argument ≠ ""
  line : '\n' ∉ argument.toList
  eq : name = f.name ++ "(" ++ argument ++ ")"

variable {f g : AggregateFunction} {argument argument' name : String}

theorem mem_all (f : AggregateFunction) : f ∈ all := by
  cases f <;> decide

theorem name_injective : Function.Injective AggregateFunction.name := by
  intro f g
  cases f <;> cases g <;> decide

theorem not_mem_name (f : AggregateFunction) : '(' ∉ f.name.toList := by
  cases f <;> decide

theorem IsCall.toList (h : f.IsCall argument name) :
    name.toList = f.name.toList ++ '(' :: (argument.toList ++ [')']) := by
  rw [h.eq]
  simp

/-- A call ends with a parenthesis, and with no line end. -/
theorem IsCall.ne_append (h : f.IsCall argument name) (call : String) : name ≠ call ++ "\n" := by
  rintro rfl
  have hends : call.toList ++ ['\n'] = (f.name.toList ++ '(' :: argument.toList) ++ [')'] := by
    simpa using h.toList
  cases (List.append_inj' hends rfl).2

/-- A name is no more than one call. The function ends where the first parenthesis is. -/
theorem IsCall.unique (h : f.IsCall argument name) (h' : g.IsCall argument' name) :
    f = g ∧ argument = argument' := by
  have hname {k : AggregateFunction} {rest : List Char} :
      (k.name.toList ++ '(' :: rest).takeWhile (· ≠ '(') = k.name.toList := by
    refine takeWhile_append (fun c hc => ?_) (by simp)
    simpa using ne_of_mem_of_not_mem hc k.not_mem_name
  have hchars := h.toList.symm.trans h'.toList
  have hf : f.name.toList = g.name.toList := by
    rw [← hname, hchars, hname]
  obtain rfl := name_injective (String.toList_inj.1 hf)
  have harguments := (List.cons.inj (List.append_cancel_left hchars)).2
  exact ⟨rfl, String.toList_inj.1 (List.append_cancel_right harguments)⟩

end AggregateFunction

namespace SelectedField

open AggregateFunction

theorem after?_eq_some {word chars rest : List Char} :
    after? word chars = some rest ↔ chars = word ++ rest := by
  induction word generalizing chars with
  | nil => simp [after?, eq_comm]
  | cons c word ih =>
    cases chars with
    | nil => simp [after?]
    | cons d chars =>
      rw [after?]
      split
      · next hcd => simp [ih, hcd]
      · next hcd => simp [Ne.symm hcd]

/-- The argument is all between the first character and the last one, which are the
parentheses. -/
theorem argument?_eq_some {chars inner : List Char} :
    argument? chars = some inner ↔
      inner ≠ [] ∧ '\n' ∉ inner ∧ chars = '(' :: (inner ++ [')']) := by
  constructor
  · intro h
    unfold argument? at h
    split at h
    · next rest =>
      split at h
      · next back hback =>
        obtain rfl : rest = back.reverse ++ [')'] := by
          rw [← List.reverse_reverse rest, hback, List.reverse_cons]
        split at h
        · cases h
        · next hinner =>
          obtain rfl := Option.some.inj h
          simpa [not_or] using hinner
      · cases h
    · cases h
  · rintro ⟨hne, hline, rfl⟩
    have hback : (inner ++ [')']).reverse = ')' :: inner.reverse := by simp
    have hinner : ¬(inner.reverse.isEmpty || inner.reverse.contains '\n') = true := by
      simpa [not_or] using ⟨hne, hline⟩
    simp only [argument?, hback]
    rw [if_neg hinner, List.reverse_reverse]

/-- A text is read as the call of a function when it is one. -/
theorem callWith_eq_some {chars : List Char} {f : AggregateFunction}
    {call : AggregateFunction × String} :
    (((after? f.name.toList chars).bind argument?).map fun inner => (f, String.ofList inner)) =
        some call ↔
      call.1 = f ∧ f.IsCall call.2 (String.ofList chars) := by
  simp only [Option.map_eq_some_iff, Option.bind_eq_some_iff, after?_eq_some, argument?_eq_some]
  constructor
  · rintro ⟨inner, ⟨rest, rfl, hne, hline, rfl⟩, rfl⟩
    refine ⟨rfl, by simpa using hne, by simpa using hline, ?_⟩
    rw [← String.toList_inj]
    simp
  · rintro ⟨rfl, h⟩
    have hchars := h.toList
    rw [String.toList_ofList] at hchars
    exact ⟨call.2.toList, ⟨_, hchars, by simpa using h.ne_empty, h.line, rfl⟩,
      by rw [String.ofList_toList]⟩

/-- A text is read as a call when it is one. -/
theorem callOf?_eq_some {chars : List Char} {f : AggregateFunction} {argument : String} :
    callOf? chars = some (f, argument) ↔ f.IsCall argument (String.ofList chars) := by
  have hcall {call : AggregateFunction × String} (h : callOf? chars = some call) :
      call.1.IsCall call.2 (String.ofList chars) := by
    obtain ⟨g, -, hg⟩ := List.exists_of_findSome?_eq_some h
    obtain ⟨rfl, hg⟩ := callWith_eq_some.1 hg
    exact hg
  refine ⟨hcall, fun h => ?_⟩
  have hsome : (callOf? chars).isSome :=
    List.findSome?_isSome_iff.2 ⟨f, f.mem_all, Option.isSome_iff_exists.2
      ⟨(f, argument), callWith_eq_some.2 ⟨rfl, h⟩⟩⟩
  obtain ⟨call, hread⟩ := Option.isSome_iff_exists.1 hsome
  obtain ⟨rfl, rfl⟩ := h.unique (hcall hread)
  exact hread

/-- A line end at the end of a text is dropped, and otherwise nothing. -/
theorem dropLineEnd_cases (chars : List Char) :
    (∃ core, chars = core ++ ['\n'] ∧ dropLineEnd chars = core) ∨
      (∀ core, chars ≠ core ++ ['\n']) ∧ dropLineEnd chars = chars := by
  unfold dropLineEnd
  split
  · next rest hrest =>
    refine .inl ⟨rest.reverse, ?_, rfl⟩
    rw [← List.reverse_reverse chars, hrest, List.reverse_cons]
  · next hrest =>
    refine .inr ⟨?_, rfl⟩
    rintro core rfl
    exact hrest core.reverse (by simp)

/-- A name is read as an aggregate when it is a call, or one with a line end after it. -/
theorem aggregate_ofName {name argument : String} {f : AggregateFunction} :
    (ofName name).aggregate = some (f, argument) ↔
      f.IsCall argument name ∨ ∃ call, f.IsCall argument call ∧ name = call ++ "\n" := by
  rw [ofName, callOf?_eq_some]
  obtain ⟨core, hname, hdrop⟩ | ⟨hname, hdrop⟩ := dropLineEnd_cases name.toList
  · have hline : name = String.ofList core ++ "\n" := by
      rw [← String.toList_inj, hname]
      simp
    rw [hdrop, or_iff_right fun h => h.ne_append _ hline]
    constructor
    · exact fun h => ⟨_, h, hline⟩
    · rintro ⟨call, h, heq⟩
      obtain rfl := (String.append_left_inj "\n").1 (hline.symm.trans heq)
      exact h
  · rw [hdrop, String.ofList_toList, or_iff_left]
    rintro ⟨call, -, rfl⟩
    exact hname call.toList (by simp)

/-- The last parenthesis closes the call, whatever the argument opens and closes. -/
example : (ofName "max(f(x)) + g(y)").aggregate = some (.max, "f(x)) + g(y") := rfl

end SelectedField

/-! ## Names of fields -/

/-- Whether a name is looked up under its stored name wherever the name of a field may stand: among
the fields of rows and those of records, in a group, and as a sort key. -/
structure FieldCompiler.LooksUp (k : FieldCompiler) (e : Entity) (name : String) : Prop where
  row : k.selectedTerm? e (.ofName name) =
    e.reach.field? k.schema (k.naming.toStorage name) >>= fun field =>
      field.shown?.map fun x => ⟨.plain x, k.naming.toStorage name⟩
  records : ∀ skipAggregates, k.fieldNames? e skipAggregates [.ofName name] =
    if e.isRelationship (k.naming.toStorage name) then .ok []
    else (e.reach.field? k.schema (k.naming.toStorage name)).map fun _ =>
      [k.naming.toStorage name]
  group : k.group? e [.ofName name] =
    e.reach.field? k.schema (k.naming.toStorage name) >>= (·.groupOperands? e.reach)
  sort : (SortCompiler.mk k.schema k.naming).localKey? e name =
    e.reach.field? k.schema (k.naming.toStorage name) >>= SortCompiler.fieldKey?

theorem FieldCompiler.looksUp_of_plain {name : String}
    (h : (SelectedField.ofName name).aggregate = none) (k : FieldCompiler) (e : Entity) :
    k.LooksUp e name := by
  have hplain : (SelectedField.ofName name).isAggregate = false := by
    rw [SelectedField.isAggregate, h, Option.isSome_none]
  have hname : (SelectedField.ofName name).name = name := rfl
  refine ⟨?_, fun skipAggregates => ?_, ?_, ?_⟩
  · rw [selectedTerm?, hplain, if_neg Bool.false_ne_true, hname]
    refine congrArg (e.reach.field? k.schema (k.naming.toStorage name) >>= ·)
      (funext fun field => ?_)
    cases field.shown? <;> rfl
  · rw [fieldNames?, hplain, hname, Bool.and_false, Bool.false_or]
    split
    · rfl
    · cases e.reach.field? k.schema (k.naming.toStorage name) <;> rfl
  · rw [group?, List.mapM_cons, List.mapM_nil, groupOperands?, hplain, if_neg Bool.false_ne_true,
      hname]
    cases e.reach.field? k.schema (k.naming.toStorage name) with
    | error => rfl
    | ok field => cases h : field.groupOperands? e.reach <;> simp [h, bind, pure, Except.bind,
        Except.pure]
  · rw [SortCompiler.localKey?, hplain, if_neg Bool.false_ne_true]

/-- **Names are told apart from calls.** A name is read as an aggregate with a function and an
argument exactly when it is the call of that function with that argument, and a name that is no call
is that of a field, looked up under its stored name. This is so for every name but calls with a line
end after them, which are read as aggregates, too. -/
theorem SelectedField.classified_iff (name : String) :
    ((∀ f argument, (ofName name).aggregate = some (f, argument) ↔
        AggregateFunction.IsCall f argument name) ∧
      ((∀ f argument, ¬AggregateFunction.IsCall f argument name) →
        ∀ (k : FieldCompiler) (e : Entity), k.LooksUp e name)) ↔
    ∀ call f argument, AggregateFunction.IsCall f argument call → name ≠ call ++ "\n" := by
  constructor
  · rintro ⟨hcalls, -⟩ call f argument hcall rfl
    have hname := (hcalls f argument).1 (aggregate_ofName.2 (.inr ⟨call, hcall, rfl⟩))
    exact hname.ne_append call rfl
  · intro hline
    have hcalls : ∀ f argument, (ofName name).aggregate = some (f, argument) ↔
        AggregateFunction.IsCall f argument name := by
      intro f argument
      rw [aggregate_ofName, or_iff_left]
      rintro ⟨call, hcall, hname⟩
      exact hline call f argument hcall hname
    refine ⟨hcalls, fun hnone k e => FieldCompiler.looksUp_of_plain ?_ k e⟩
    refine Option.eq_none_iff_forall_not_mem.2 fun call hcall => ?_
    exact hnone call.1 call.2 ((hcalls _ _).1 hcall)

namespace Sample

/-- A call is read as an aggregate when a line end stands after it. -/
theorem line_end_overlooked :
    ¬∀ name f argument, (SelectedField.ofName name).aggregate = some (f, argument) ↔
      AggregateFunction.IsCall f argument name := by
  intro h
  have hcall := ((h "count(id)\n" .count "id").1 rfl).eq
  revert hcall
  decide

end Sample

end ResourceQuery
