import Fieldwise.Proofs.CallTree.Template

/-!
# Which templates have a call tree

* `Node.parts`, `pipelineParts` : the nodes of a template and the operands of a pipeline, at any
  depth.
* `Operand.Rooted`, `Pipeline.IndexesOnce`, `Pipeline.RangesOverField` : the constructs whose
  fields can be told from their text.
* `Template.Followable` : what a template must satisfy, said without any order of reading.
* `Judges` : a result is there exactly under a condition and where paths fit, and is never refused
  for depth unless a path does not fit. `Judges.andThen` puts two steps
  together.
* `CallTree.ofTemplate_ok_iff` : a template has a call tree exactly when it is followable.

The depth that a part is built at is the length of the path to it. `Fits` ties the two together:
what a part contributes is measured from there.
-/

set_option autoImplicit false

namespace Fieldwise

/-! ## What can be followed -/

/-- A dot or a field. -/
inductive Operand.IsPlace : Operand → Prop
  | dot (pos : Pos) : IsPlace (.dot pos)
  | field (pos : Pos) (names : List String) : IsPlace (.field pos names)

/-- An operand whose value has a known place: through parentheses around a single operand and
through the fields behind an operand it comes down to a dot, a field or a picked element. -/
inductive Operand.Rooted : Operand → Prop
  | place {a : Operand} (h : a.IsPlace) : Rooted a
  | chain {base : Operand} {fields : List String} (h : Rooted base) : Rooted (.chain base fields)
  | picked {pipe : Pipeline Operand} {names : List String} (h : pipe.picked? = some names) :
      Rooted (.group pipe)
  | single {pos commandPos : Pos} {assigns : Bool} {inner : Operand} (h : Rooted inner) :
      Rooted (.group ⟨pos, assigns, [], [⟨commandPos, [inner]⟩]⟩)

namespace Pipeline

/-- If the pipeline is a lone call of `index` with a field, one argument follows the field. -/
def IndexesOnce (pipe : Pipeline Operand) : Prop :=
  ∀ commandPos pos fieldPos names indices, pipe.declared = [] →
    pipe.commands =
      [⟨commandPos, .identifier pos indexFunction :: .field fieldPos names :: indices⟩] →
    indices.length = 1

/-- The pipeline is a single dot or field, or a helper that hands such an argument back. -/
def RangesOverField (pipe : Pipeline Operand) : Prop :=
  ∃ pos arg, arg.IsPlace ∧ (pipe.commands = [⟨pos, [arg]⟩] ∨
    ∃ helperPos name, isPassthrough name = true ∧
      pipe.commands = [⟨pos, [.identifier helperPos name, arg]⟩])

end Pipeline

/-! ## Parts of a template -/

mutual

/-- The operand and the operands in it, at any depth. -/
def Operand.parts : Operand → List Operand
  | .chain base fields => .chain base fields :: base.parts
  | .group pipe => .group pipe :: pipelineParts pipe
  | operand => [operand]
termination_by structural operand => operand

/-- The operands of a pipeline, at any depth. -/
def pipelineParts : Pipeline Operand → List Operand
  | ⟨_, _, _, commands⟩ => commandsParts commands
termination_by structural pipe => pipe

/-- The operands of some commands, at any depth. -/
def commandsParts : List (Command Operand) → List Operand
  | [] => []
  | command :: rest => commandParts command ++ commandsParts rest
termination_by structural commands => commands

/-- The operands of a command, at any depth. -/
def commandParts : Command Operand → List Operand
  | ⟨_, args⟩ => operandsParts args
termination_by structural command => command

/-- The operands in some operands, at any depth. -/
def operandsParts : List Operand → List Operand
  | [] => []
  | operand :: rest => operand.parts ++ operandsParts rest
termination_by structural operands => operands

end

mutual

/-- The node and the nodes in its lists, at any depth. -/
def Node.parts : Node → List Node
  | .branch kind pos pipe body alternative =>
    .branch kind pos pipe body alternative :: (listParts body ++ alternativeParts alternative)
  | node => [node]
termination_by structural node => node

/-- The nodes of a list, at any depth. -/
def listParts : NodeList Node → List Node
  | ⟨_, nodes⟩ => nodesParts nodes
termination_by structural list => list

/-- The nodes of a list that may be missing, at any depth. -/
def alternativeParts : Option (NodeList Node) → List Node
  | none => []
  | some list => listParts list
termination_by structural list => list

/-- The nodes in some nodes, at any depth. -/
def nodesParts : List Node → List Node
  | [] => []
  | node :: rest => node.parts ++ nodesParts rest
termination_by structural nodes => nodes

end

namespace Node

/-- A text, an action, a conditional or a range. -/
def IsSupported : Node → Prop
  | text _ _ | action _ _ | branch .conditional _ _ _ _ | branch .range _ _ _ _ => True
  | branch .focus _ _ _ _ | template _ _ _ | leave _ | skip _ => False

/-- The pipeline of an action or a conditional. -/
def shown? : Node → Option (Pipeline Operand)
  | action _ pipe | branch .conditional _ pipe _ _ => some pipe
  | _ => none

/-- The pipeline that a range goes over. -/
def target? : Node → Option (Pipeline Operand)
  | branch .range _ pipe _ _ => some pipe
  | _ => none

end Node

namespace Template

variable (template : Template)

/-- The pipelines of actions and conditionals; those of ranges are no part of them. -/
def shown : List (Pipeline Operand) :=
  (listParts template).filterMap Node.shown?

/-- The operands outside the pipelines of ranges, at any depth. -/
def operands : List Operand :=
  template.shown.flatMap pipelineParts

/-- The template can be followed: which fields it uses can be told from its text. -/
structure Followable : Prop where
  nodes : ∀ node ∈ listParts template, node.IsSupported
  ranges : ∀ node ∈ listParts template, ∀ pipe ∈ node.target?, pipe.RangesOverField
  indexed : ∀ pipe, pipe ∈ template.shown ∨ .group pipe ∈ template.operands → pipe.IndexesOnce
  chains : ∀ base fields, .chain base fields ∈ template.operands → base.Rooted
  depth : ∀ use ∈ listUses template, use.length ≤ maxTreeDepth

end Template

/-! ## Results with their condition -/

/-- From a place at `depth`, no path reaches beyond the depth that a tree may have. -/
def Fits (depth : Nat) (uses : List (List Step)) : Prop :=
  ∀ use ∈ uses, depth + use.length ≤ maxTreeDepth

theorem fits_nil (depth : Nat) : Fits depth [] := nofun

theorem fits_singleton {depth : Nat} {use : List Step} :
    Fits depth [use] ↔ depth + use.length ≤ maxTreeDepth := by
  simp [Fits]

theorem fits_append {depth : Nat} {us vs : List (List Step)} :
    Fits depth (us ++ vs) ↔ Fits depth us ∧ Fits depth vs :=
  List.forall_mem_append

/-- What lies below a path fits there, if it fits where the path ends. -/
theorem fits_map_append (depth : Nat) (path : List Step) (us : List (List Step)) :
    Fits depth (us.map (path ++ ·)) ↔ Fits (depth + path.length) us := by
  simp [Fits, Nat.add_assoc]

section Judges

variable {α β : Type} {r : Except TemplateError α} {good good' : Prop} {depth : Nat}
  {us vs : List (List Step)}

/-- There is a result exactly if `good` holds and the paths fit, and where they fit nothing is
refused for depth. -/
structure Judges (r : Except TemplateError α) (good : Prop) (depth : Nat)
    (uses : List (List Step)) : Prop where
  ok_iff : (∃ a, r = .ok a) ↔ good ∧ Fits depth uses
  not_fits : ∀ e limit, r = .error e → e.fault = .fieldsTooDeep limit → ¬ Fits depth uses

namespace Judges

theorem pure (a : α) : Judges (.ok a : Except TemplateError α) True depth [] :=
  ⟨⟨fun _ => ⟨trivial, fits_nil depth⟩, fun _ => ⟨a, rfl⟩⟩, nofun⟩

/-- What is refused for another reason than depth. -/
theorem refuse {e : TemplateError} (hgood : ¬ good) (he : ∀ limit, e.fault ≠ .fieldsTooDeep limit) :
    Judges (.error e : Except TemplateError α) good depth us :=
  ⟨⟨nofun, fun h => absurd h.1 hgood⟩, fun e' limit h hdeep => by
    cases h
    exact absurd hdeep (he limit)⟩

theorem congr (h : Judges r good depth us) (hgood : good ↔ good')
    (hfits : Fits depth us ↔ Fits depth vs) : Judges r good' depth vs :=
  ⟨h.ok_iff.trans (and_congr hgood hfits),
    fun e limit he hdeep => mt hfits.mpr (h.not_fits e limit he hdeep)⟩

/-- A step behind which nothing is refused. -/
theorem andDone {s : Except TemplateError β} (h : Judges r good depth us)
    (herror : ∀ e, r = .error e → s = .error e) (hok : ∀ a, r = .ok a → ∃ b, s = .ok b) :
    Judges s good depth us := by
  cases r with
  | ok a => exact ⟨iff_of_true (hok a rfl) (h.ok_iff.mp ⟨a, rfl⟩), by
      obtain ⟨b, rfl⟩ := hok a rfl
      exact nofun⟩
  | error e =>
    rw [herror e rfl]
    refine ⟨iff_of_false nofun fun hok => ?_, fun e' limit he => ?_⟩
    · obtain ⟨a, ha⟩ := h.ok_iff.mpr hok
      cases ha
    · cases he
      exact h.not_fits e limit rfl

theorem map (h : Judges r good depth us) (f : α → β) : Judges (r.map f) good depth us :=
  h.andDone (fun e he => by rw [he]; rfl) fun a ha => ⟨f a, by rw [ha]; rfl⟩

/-- What is judged from the end of a path is judged from its start. -/
theorem below {path : List Step} (h : Judges r good (depth + path.length) us) :
    Judges r good depth (us.map (path ++ ·)) := by
  have hfits := fits_map_append depth path us
  exact ⟨h.ok_iff.trans (and_congr_right' hfits.symm),
    fun e limit he hdeep => mt hfits.mp (h.not_fits e limit he hdeep)⟩

/-- A step and what comes behind it: both conditions have to hold, and the paths of both have to
fit. -/
theorem andThen {s : Except TemplateError β} (h : Judges r good depth us)
    (herror : ∀ e, r = .error e → s = .error e)
    (hok : ∀ a, r = .ok a → Judges s good' depth vs) :
    Judges s (good ∧ good') depth (us ++ vs) := by
  cases r with
  | ok a =>
    obtain ⟨hgood, hus⟩ := h.ok_iff.mp ⟨a, rfl⟩
    have hfits : Fits depth vs ↔ Fits depth (us ++ vs) := by
      rw [fits_append, and_iff_right hus]
    exact (hok a rfl).congr (and_iff_right hgood).symm hfits
  | error e =>
    rw [herror e rfl]
    refine ⟨⟨nofun, fun ⟨hgood, hfits⟩ => ?_⟩, fun e' limit he hdeep hfits => ?_⟩
    · obtain ⟨a, ha⟩ := h.ok_iff.mpr ⟨hgood.1, (fits_append.mp hfits).1⟩
      cases ha
    · cases he
      exact h.not_fits e limit rfl hdeep (fits_append.mp hfits).1

end Judges

end Judges

/-! ## Paths -/

section Paths

variable {depth : Nat}

theorem checkDepth_judges (depth : Nat) (pos : Pos) (path : List Step) :
    Judges (checkDepth (depth + path.length) pos) True depth [path] := by
  unfold checkDepth
  split
  · next h =>
    exact (Judges.pure ()).congr Iff.rfl (iff_of_true (fits_nil depth) (fits_singleton.mpr h))
  · next h =>
    exact ⟨⟨nofun, fun hok => absurd (fits_singleton.mp hok.2) h⟩,
      fun _ _ _ _ hfits => h (fits_singleton.mp hfits)⟩

theorem length_fieldSteps (names : List String) : (fieldSteps names).length = names.length :=
  List.length_map _

theorem fieldPath_judges (depth : Nat) (pos : Pos) (names : List String) :
    Judges (fieldPath depth pos names) True depth [fieldSteps names] := by
  have hcheck := checkDepth_judges depth pos (fieldSteps names)
  rw [length_fieldSteps] at hcheck
  rw [fieldPath]
  exact hcheck.andDone (fun e he => by rw [he]) fun _ hok => ⟨fieldSteps names, by rw [hok]⟩

/-- Where the longer of two paths fits, the shorter one at its beginning fits as well. -/
theorem fits_pair_append {us vs : List Step} :
    Fits depth ([us] ++ [us ++ vs]) ↔ Fits depth [us ++ vs] := by
  rw [fits_append, and_iff_right_iff_imp, fits_singleton, fits_singleton, List.length_append]
  omega

theorem elementPath_judges (depth : Nat) (pos : Pos) (names : List String) :
    Judges (elementPath depth pos names) True depth [fieldSteps names ++ [.element]] := by
  have hcheck := checkDepth_judges depth pos (fieldSteps names ++ [.element])
  rw [List.length_append, length_fieldSteps, List.length_singleton, ← Nat.add_assoc] at hcheck
  rw [elementPath]
  have hfields := fieldPath_judges depth pos names
  refine (hfields.andThen (fun e he => by rw [he]) fun path hpath => ?_).congr and_self_iff
    fits_pair_append
  rw [hpath]
  exact hcheck.andDone (fun e he => by dsimp only; rw [he]) fun _ hok =>
    ⟨path ++ [.element], by dsimp only; rw [hok]⟩

/-! ### Index calls and targets of ranges -/

variable {pipe : Pipeline Operand}

theorem Pipeline.indexesOnce_of_ok {r : Option (Pos × List String)}
    (h : pipe.indexedField? = .ok r) : pipe.IndexesOnce := by
  intro commandPos pos fieldPos names indices hdeclared hcommands
  unfold indexedField? at h
  rw [hdeclared, hcommands] at h
  rcases indices with _ | ⟨index, _ | ⟨more, indices⟩⟩
  · cases h
  · rfl
  · simp at h

/-- A call of `index` that cannot be followed has another number of arguments behind its field. -/
theorem Pipeline.indexedField?_error {e : TemplateError} (h : pipe.indexedField? = .error e) :
    ¬ pipe.IndexesOnce ∧ ∃ count, e.fault = .indexArguments count := by
  unfold indexedField? at h
  split at h
  · next command hdeclared hcommands =>
    obtain ⟨commandPos, args⟩ := command
    dsimp only at h
    split at h
    · next pos name fieldPos names indices =>
      split at h
      · next hname =>
        subst hname
        split at h
        · cases h
        · cases h
        · next hmany =>
          cases h
          refine ⟨fun honce => ?_, _, rfl⟩
          obtain ⟨index, rfl⟩ := List.length_eq_one_iff.mp
            (honce _ _ _ _ _ hdeclared hcommands)
          exact hmany index rfl
      · cases h
    · cases h
  · cases h

theorem Pipeline.target_judges (arg : Operand) :
    Judges (rangeField.target arg) arg.IsPlace depth [] := by
  cases arg with
  | dot pos => exact (Judges.pure _).congr (iff_of_true trivial (.dot pos)) Iff.rfl
  | field pos names => exact (Judges.pure _).congr (iff_of_true trivial (.field pos names)) Iff.rfl
  | _ => exact .refuse nofun fun _ => TemplateFault.noConfusion

section Range

variable {pos commandPos : Pos} {assigns : Bool} {declared : List DeclaredVariable}

/-- A pipeline that is neither a single operand nor a call with one argument. -/
theorem Pipeline.not_rangesOverField {commands : List (Command Operand)}
    (hone : ∀ commandPos arg, commands ≠ [⟨commandPos, [arg]⟩])
    (htwo : ∀ commandPos helperPos name arg,
      commands ≠ [⟨commandPos, [.identifier helperPos name, arg]⟩]) :
    ¬ RangesOverField ⟨pos, assigns, declared, commands⟩ := by
  rintro ⟨commandPos, arg, -, h | ⟨helperPos, name, -, h⟩⟩
  · exact hone commandPos arg h
  · exact htwo commandPos helperPos name arg h

theorem Pipeline.rangesOverField_single {arg : Operand} :
    RangesOverField ⟨pos, assigns, declared, [⟨commandPos, [arg]⟩]⟩ ↔ arg.IsPlace := by
  constructor
  · rintro ⟨_, arg, harg, h | ⟨_, _, _, h⟩⟩
    · cases h
      exact harg
    · cases h
  · intro harg
    exact ⟨commandPos, arg, harg, .inl rfl⟩

theorem Pipeline.rangesOverField_call {helperPos : Pos} {name : String} {arg : Operand} :
    RangesOverField
        ⟨pos, assigns, declared, [⟨commandPos, [.identifier helperPos name, arg]⟩]⟩ ↔
      isPassthrough name = true ∧ arg.IsPlace := by
  constructor
  · rintro ⟨_, arg, harg, h | ⟨_, _, hname, h⟩⟩
    · cases h
    · cases h
      exact ⟨hname, harg⟩
  · rintro ⟨hname, harg⟩
    exact ⟨commandPos, arg, harg, .inr ⟨helperPos, name, hname, rfl⟩⟩

end Range

/-- The range goes over what its pipeline hands on, if that can be told. -/
theorem Pipeline.rangeField_judges (pipe : Pipeline Operand) :
    Judges pipe.rangeField pipe.RangesOverField depth [] := by
  obtain ⟨pos, assigns, declared, commands⟩ := pipe
  rcases commands with _ | ⟨⟨commandPos, args⟩, _ | ⟨other, commands⟩⟩
  · exact .refuse (not_rangesOverField nofun nofun) fun _ => TemplateFault.noConfusion
  · rcases args with _ | ⟨head, _ | ⟨arg, _ | ⟨third, rest⟩⟩⟩
    · exact .refuse (not_rangesOverField nofun nofun) fun _ => TemplateFault.noConfusion
    · exact (target_judges head).congr rangesOverField_single.symm Iff.rfl
    · cases head with
      | identifier helperPos name =>
        rw [rangesOverField_call]
        unfold rangeField
        dsimp only
        split
        · next hname => exact (target_judges arg).congr (and_iff_right hname).symm Iff.rfl
        · next hname => exact .refuse (fun h => hname h.1) fun _ => TemplateFault.noConfusion
      | _ => exact .refuse (not_rangesOverField nofun nofun) fun _ => TemplateFault.noConfusion
    · exact .refuse (not_rangesOverField nofun nofun) fun _ => TemplateFault.noConfusion
  · exact .refuse (not_rangesOverField nofun nofun) fun _ => TemplateFault.noConfusion

/-! ### Rooted operands -/

theorem Operand.rooted_chain {base : Operand} {fields : List String} :
    (Operand.chain base fields).Rooted ↔ base.Rooted := by
  refine ⟨fun h => ?_, .chain⟩
  cases h with
  | place h => cases h
  | chain h => exact h

theorem Operand.Rooted.indexesOnce {pipe : Pipeline Operand} (h : (Operand.group pipe).Rooted) :
    pipe.IndexesOnce := by
  cases h with
  | place h => cases h
  | picked h =>
    obtain ⟨pos, hfield⟩ := Pipeline.indexedField?_of_picked h
    exact Pipeline.indexesOnce_of_ok hfield
  | single h => exact nofun

theorem Operand.rooted_group {pos : Pos} {assigns : Bool} {declared : List DeclaredVariable}
    {commands : List (Command Operand)}
    (h : Pipeline.picked? ⟨pos, assigns, declared, commands⟩ = none) :
    (Operand.group ⟨pos, assigns, declared, commands⟩).Rooted ↔
      declared = [] ∧ ∃ commandPos inner, commands = [⟨commandPos, [inner]⟩] ∧ inner.Rooted := by
  constructor
  · intro hrooted
    cases hrooted with
    | place hplace => cases hplace
    | picked hpicked => rw [h] at hpicked; cases hpicked
    | single hinner => exact ⟨rfl, _, _, rfl, hinner⟩
  · rintro ⟨rfl, commandPos, inner, rfl, hinner⟩
    exact .single hinner

/-- The path to the value of an operand that fields are taken of. -/
theorem Operand.path_judges (hdepth : depth ≤ maxTreeDepth) :
    ∀ operand : Operand, Judges (operand.path depth) operand.Rooted depth [operand.basePath]
  | .dot pos =>
    (Judges.pure []).congr (iff_of_true trivial (.place (.dot pos)))
      (iff_of_true (fits_nil depth) (fits_singleton.mpr hdepth))
  | .field pos names =>
    (fieldPath_judges depth pos names).congr (iff_of_true trivial (.place (.field pos names)))
      Iff.rfl
  | .chain base fields => by
    rw [Operand.path, Operand.basePath, rooted_chain]
    refine ((path_judges hdepth base).andThen (fun e he => by rw [he]) fun path hbase => ?_).congr
      (and_iff_left trivial) fits_pair_append
    rw [hbase, ← path_ok base hbase]
    have hfields := (fieldPath_judges (depth + path.length) base.pos fields).below
    exact hfields.andDone (fun e he => by dsimp only; rw [he]) fun steps hsteps =>
      ⟨path ++ steps, by dsimp only; rw [hsteps]⟩
  | .group ⟨pos, assigns, declared, commands⟩ => by
    unfold Operand.path
    unfold Operand.basePath
    split
    · next e hindexed =>
      obtain ⟨honce, count, hfault⟩ := Pipeline.indexedField?_error hindexed
      refine .refuse (fun h => honce h.indexesOnce) fun limit hdeep => ?_
      cases hfault.symm.trans hdeep
    · next fieldPos names hindexed =>
      have hpicked := Pipeline.indexedField?_ok hindexed
      rw [hpicked]
      exact (elementPath_judges depth fieldPos names).congr
        (iff_of_true trivial (.picked hpicked)) Iff.rfl
    · next hindexed =>
      have hpicked := Pipeline.indexedField?_ok hindexed
      rw [hpicked]
      split
      · next commandPos inner =>
        refine (path_judges hdepth inner).congr ⟨.single, fun h => ?_⟩ Iff.rfl
        obtain ⟨-, _, _, hsame, hinner⟩ := (rooted_group hpicked).mp h
        cases hsame
        exact hinner
      · next hlone =>
        refine .refuse (fun h => ?_) fun _ => TemplateFault.noConfusion
        obtain ⟨rfl, commandPos, inner, rfl, -⟩ := (rooted_group hpicked).mp h
        exact hlone _ _ rfl rfl
  | .var _ _ _ => .refuse nofun fun _ => TemplateFault.noConfusion
  | .identifier _ _ => .refuse nofun fun _ => TemplateFault.noConfusion
  | .string _ _ => .refuse nofun fun _ => TemplateFault.noConfusion
  | .number _ _ => .refuse nofun fun _ => TemplateFault.noConfusion
  | .bool _ _ => .refuse nofun fun _ => TemplateFault.noConfusion
  | .nil _ => .refuse nofun fun _ => TemplateFault.noConfusion

end Paths

/-! ## Trees -/

/-- The operand can be followed by itself, whatever the operands in it. -/
def Operand.Followed : Operand → Prop
  | .chain base _ => base.Rooted
  | .group pipe => pipe.IndexesOnce
  | _ => True

/-- The pipeline and all operands in it can be followed. -/
def Pipeline.Followed (pipe : Pipeline Operand) : Prop :=
  pipe.IndexesOnce ∧ ∀ part ∈ pipelineParts pipe, part.Followed

/-- The node can be followed by itself, whatever the nodes in its lists. -/
def Node.Followed : Node → Prop
  | .text _ _ => True
  | .action _ pipe | .branch .conditional _ pipe _ _ => pipe.Followed
  | .branch .range _ pipe _ _ => pipe.RangesOverField
  | .branch .focus _ _ _ _ | .template _ _ _ | .leave _ | .skip _ => False

/-- A pipeline that picks an element holds no chain and no further pipeline. -/
theorem Pipeline.followed_of_picked {pipe : Pipeline Operand} {names : List String}
    (h : pipe.picked? = some names) : pipe.Followed := by
  obtain ⟨pos, hfield⟩ := indexedField?_of_picked h
  refine ⟨indexesOnce_of_ok hfield, ?_⟩
  obtain ⟨pos, assigns, declared, commands⟩ := pipe
  unfold picked? at h
  split at h
  · next hcommands =>
    cases hcommands
    simp [pipelineParts, commandsParts, commandParts, operandsParts, Operand.parts,
      Operand.Followed]
  · cases h

/-- All operands in a rooted one can be followed. -/
theorem Operand.Rooted.followed {a : Operand} (h : a.Rooted) : ∀ part ∈ a.parts, part.Followed := by
  induction h with
  | place h => cases h <;> simp [Operand.parts, Operand.Followed]
  | chain h ih =>
    rw [Operand.parts]
    exact List.forall_mem_cons.mpr ⟨h, ih⟩
  | picked h =>
    rw [Operand.parts]
    exact List.forall_mem_cons.mpr (Pipeline.followed_of_picked h)
  | single h ih =>
    rw [Operand.parts]
    refine List.forall_mem_cons.mpr ⟨h.single.indexesOnce, ?_⟩
    simpa [pipelineParts, commandsParts, commandParts, operandsParts] using ih

section Trees

variable {depth : Nat}

/-- An operand that holds no other and uses nothing. -/
theorem Operand.judges_of_parts {operand : Operand} {t : CallTree}
    (hparts : operand.parts = [operand]) (h : operand.Followed) :
    Judges (.ok t) (∀ part ∈ operand.parts, part.Followed) depth [] := by
  rw [hparts]
  exact (Judges.pure t).congr (iff_of_true trivial (List.forall_mem_singleton.mpr h)) Iff.rfl

mutual

theorem Operand.tree_judges (hdepth : depth ≤ maxTreeDepth) : ∀ operand : Operand,
    Judges (operand.tree depth) (∀ part ∈ operand.parts, part.Followed) depth operand.uses
  | .field pos names => by
    rw [Operand.tree, Operand.uses]
    refine ((fieldPath_judges depth pos names).map _).congr (iff_of_true trivial ?_) Iff.rfl
    simp [Operand.parts, Operand.Followed]
  | .chain base fields => by
    have hpath : Judges _ _ _ _ := Operand.path_judges hdepth (.chain base fields)
    rw [Operand.tree, Operand.uses]
    rw [Operand.basePath] at hpath
    refine (hpath.map _).congr (Operand.rooted_chain.trans ?_) Iff.rfl
    rw [Operand.parts, List.forall_mem_cons]
    exact (and_iff_left_of_imp Operand.Rooted.followed).symm
  | .group pipe => by
    rw [Operand.tree, Operand.uses, Operand.parts, List.forall_mem_cons]
    exact pipelineTree_judges hdepth pipe
  | .dot _ => Operand.judges_of_parts rfl trivial
  | .var _ _ _ => Operand.judges_of_parts rfl trivial
  | .identifier _ _ => Operand.judges_of_parts rfl trivial
  | .string _ _ => Operand.judges_of_parts rfl trivial
  | .number _ _ => Operand.judges_of_parts rfl trivial
  | .bool _ _ => Operand.judges_of_parts rfl trivial
  | .nil _ => Operand.judges_of_parts rfl trivial
termination_by structural operand => operand

theorem pipelineTree_judges (hdepth : depth ≤ maxTreeDepth) : ∀ pipe : Pipeline Operand,
    Judges (pipelineTree depth pipe) pipe.Followed depth (pipelineUses pipe)
  | ⟨pos, assigns, declared, commands⟩ => by
    rw [pipelineTree, pipelineUses]
    split
    · next e hindexed =>
      obtain ⟨honce, count, hfault⟩ := Pipeline.indexedField?_error hindexed
      refine .refuse (fun h => honce h.1) fun limit hdeep => ?_
      cases hfault.symm.trans hdeep
    · next fieldPos names hindexed =>
      have hpicked := Pipeline.indexedField?_ok hindexed
      rw [hpicked]
      exact ((elementPath_judges depth fieldPos names).map _).congr
        (iff_of_true trivial (Pipeline.followed_of_picked hpicked)) Iff.rfl
    · next hindexed =>
      rw [Pipeline.indexedField?_ok hindexed]
      exact (commandsTree_judges hdepth .empty commands).congr
        (and_iff_right (Pipeline.indexesOnce_of_ok hindexed)).symm Iff.rfl
termination_by structural pipe => pipe

theorem commandsTree_judges (hdepth : depth ≤ maxTreeDepth) :
    ∀ (t : CallTree) (commands : List (Command Operand)),
    Judges (commandsTree depth t commands) (∀ part ∈ commandsParts commands, part.Followed) depth
      (commandsUses commands)
  | _, [] => (Judges.pure _).congr (iff_of_true trivial nofun) Iff.rfl
  | t, command :: rest => by
    rw [commandsTree, commandsUses, commandsParts, List.forall_mem_append]
    refine (commandTree_judges hdepth t command).andThen (fun e he => by rw [he]) fun s hs => ?_
    rw [hs]
    exact commandsTree_judges hdepth s rest
termination_by structural _ commands => commands

theorem commandTree_judges (hdepth : depth ≤ maxTreeDepth) :
    ∀ (t : CallTree) (command : Command Operand),
    Judges (commandTree depth t command) (∀ part ∈ commandParts command, part.Followed) depth
      (commandUses command)
  | t, ⟨_, args⟩ => operandsTree_judges hdepth t args
termination_by structural _ command => command

theorem operandsTree_judges (hdepth : depth ≤ maxTreeDepth) :
    ∀ (t : CallTree) (operands : List Operand),
    Judges (operandsTree depth t operands) (∀ part ∈ operandsParts operands, part.Followed) depth
      (operandsUses operands)
  | _, [] => (Judges.pure _).congr (iff_of_true trivial nofun) Iff.rfl
  | t, operand :: rest => by
    rw [operandsTree, operandsUses, operandsParts, List.forall_mem_append]
    refine (operand.tree_judges hdepth).andThen (fun e he => by rw [he]) fun s hs => ?_
    rw [hs]
    exact operandsTree_judges hdepth (t.merge s) rest
termination_by structural _ operands => operands

end

mutual

/-- **The tree of a node** is refused exactly where a part of the node cannot be followed or one of
its paths is too long. -/
theorem Node.tree_judges : ∀ {depth : Nat}, depth ≤ maxTreeDepth → ∀ node : Node,
    Judges (node.tree depth) (∀ part ∈ node.parts, part.Followed) depth node.uses
  | _, _, .text _ _ =>
    (Judges.pure _).congr (iff_of_true trivial (by simp [Node.parts, Node.Followed])) Iff.rfl
  | _, hdepth, .action pos pipe => by
    have hparts : (Node.action pos pipe).parts = [.action pos pipe] := rfl
    rw [Node.tree, Node.uses, hparts, List.forall_mem_singleton]
    exact pipelineTree_judges hdepth pipe
  | depth, hdepth, .branch .conditional pos pipe body alternative => by
    rw [Node.tree, Node.uses, Node.parts, List.forall_mem_cons, List.forall_mem_append,
      List.append_assoc]
    refine (pipelineTree_judges hdepth pipe).andThen (fun e he => by rw [he]) fun t ht => ?_
    rw [ht]
    refine (listTree_judges hdepth t body).andThen (fun e he => by dsimp only; rw [he])
      fun s hs => ?_
    dsimp only
    rw [hs]
    exact alternativeTree_judges hdepth s alternative
  | depth, hdepth, .branch .range pos pipe body alternative => by
    rw [Node.tree, Node.uses, Node.parts, List.forall_mem_cons, List.forall_mem_append]
    refine (Pipeline.rangeField_judges pipe).andThen (fun e he => by rw [he]) fun names hnames => ?_
    rw [hnames, Pipeline.rangeField_ok hnames]
    have helement := elementPath_judges depth pos names
    refine (helement.andThen (fun e he => by dsimp only; rw [he]) fun path hpath => ?_).congr
      (iff_of_eq (true_and _)) Iff.rfl
    dsimp only
    rw [hpath, ← elementPath_ok hpath]
    rw [← elementPath_ok hpath] at helement
    -- the elements lie within the depth of a tree, so that its body may be built there
    have hbelow : depth + path.length ≤ maxTreeDepth :=
      fits_singleton.mp (helement.ok_iff.mp ⟨path, hpath⟩).2
    refine (listTree_judges hbelow .empty body).below.andThen
      (fun e he => by dsimp only; rw [he]) fun t ht => ?_
    dsimp only
    rw [ht]
    exact alternativeTree_judges hdepth (t.under path) alternative
  | _, _, .branch .focus _ _ _ _ =>
    .refuse (by simp [Node.parts, Node.Followed]) fun _ => TemplateFault.noConfusion
  | _, _, .template _ _ _ =>
    .refuse (by simp [Node.parts, Node.Followed]) fun _ => TemplateFault.noConfusion
  | _, _, .leave _ =>
    .refuse (by simp [Node.parts, Node.Followed]) fun _ => TemplateFault.noConfusion
  | _, _, .skip _ =>
    .refuse (by simp [Node.parts, Node.Followed]) fun _ => TemplateFault.noConfusion
termination_by structural _ _ node => node

theorem listTree_judges : ∀ {depth : Nat}, depth ≤ maxTreeDepth →
    ∀ (t : CallTree) (list : NodeList Node),
    Judges (listTree depth t list) (∀ part ∈ listParts list, part.Followed) depth (listUses list)
  | _, hdepth, t, ⟨_, nodes⟩ => nodesTree_judges hdepth t nodes
termination_by structural _ _ _ list => list

theorem alternativeTree_judges : ∀ {depth : Nat}, depth ≤ maxTreeDepth →
    ∀ (t : CallTree) (list : Option (NodeList Node)),
    Judges (alternativeTree depth t list) (∀ part ∈ alternativeParts list, part.Followed) depth
      (alternativeUses list)
  | _, _, t, none => (Judges.pure t).congr (iff_of_true trivial nofun) Iff.rfl
  | _, hdepth, t, some list => listTree_judges hdepth t list
termination_by structural _ _ _ list => list

theorem nodesTree_judges : ∀ {depth : Nat}, depth ≤ maxTreeDepth →
    ∀ (t : CallTree) (nodes : List Node),
    Judges (nodesTree depth t nodes) (∀ part ∈ nodesParts nodes, part.Followed) depth
      (nodesUses nodes)
  | _, _, t, [] => (Judges.pure t).congr (iff_of_true trivial nofun) Iff.rfl
  | depth, hdepth, t, node :: rest => by
    rw [nodesTree, nodesUses, nodesParts, List.forall_mem_append]
    refine (node.tree_judges hdepth).andThen (fun e he => by rw [he]) fun s hs => ?_
    rw [hs]
    exact nodesTree_judges hdepth (t.merge s) rest
termination_by structural _ _ _ nodes => nodes

end

end Trees

/-! ## Templates -/

theorem Operand.followed_iff {a : Operand} : a.Followed ↔
    (∀ base fields, a = .chain base fields → base.Rooted) ∧
      ∀ pipe, a = .group pipe → pipe.IndexesOnce := by
  cases a <;> simp [Followed]

theorem Node.followed_iff {node : Node} : node.Followed ↔
    node.IsSupported ∧ (∀ pipe ∈ node.target?, pipe.RangesOverField) ∧
      ∀ pipe ∈ node.shown?, pipe.Followed := by
  cases node with
  | branch kind pos pipe body alternative =>
    cases kind <;> simp [Followed, IsSupported, target?, shown?]
  | _ => simp [Followed, IsSupported, target?, shown?]

/-- The conditions on single nodes and operands are what all parts are asked for. -/
theorem Template.followable_iff {template : Template} : template.Followable ↔
    (∀ part ∈ listParts template, part.Followed) ∧
      ∀ use ∈ listUses template, use.length ≤ maxTreeDepth := by
  constructor
  · refine fun h => ⟨fun node hnode => Node.followed_iff.mpr
      ⟨h.nodes node hnode, h.ranges node hnode, fun pipe hpipe => ?_⟩, h.depth⟩
    have hshown : pipe ∈ template.shown := List.mem_filterMap.mpr ⟨node, hnode, hpipe⟩
    refine ⟨h.indexed pipe (.inl hshown), fun part hpart => ?_⟩
    have hoperand : part ∈ template.operands := List.mem_flatMap.mpr ⟨pipe, hshown, hpart⟩
    refine Operand.followed_iff.mpr ⟨fun base fields hchain => ?_, fun inner hgroup => ?_⟩
    · subst hchain
      exact h.chains base fields hoperand
    · subst hgroup
      exact h.indexed inner (.inr hoperand)
  · rintro ⟨hparts, hdepth⟩
    have hnode := fun node hnode => Node.followed_iff.mp (hparts node hnode)
    have hshown : ∀ pipe ∈ template.shown, pipe.Followed := by
      intro pipe hpipe
      obtain ⟨node, hmem, hpipe⟩ := List.mem_filterMap.mp hpipe
      exact (hnode node hmem).2.2 pipe hpipe
    have hoperand : ∀ part ∈ template.operands, part.Followed := by
      intro part hpart
      obtain ⟨pipe, hpipe, hpart⟩ := List.mem_flatMap.mp hpart
      exact (hshown pipe hpipe).2 part hpart
    exact
      { nodes := fun node hmem => (hnode node hmem).1
        ranges := fun node hmem => (hnode node hmem).2.1
        indexed := fun pipe hpipe =>
          hpipe.elim (fun h => (hshown pipe h).1) (hoperand (.group pipe))
        chains := fun base fields => hoperand (.chain base fields)
        depth := hdepth }

theorem CallTree.ofTemplate_judges (template : Template) :
    Judges (CallTree.ofTemplate template) (∀ part ∈ listParts template, part.Followed) 0
      (listUses template) :=
  listTree_judges (Nat.zero_le _) .empty template

/-- **A template has a call tree exactly if it can be followed.** The tree is then no deeper than
`maxTreeDepth`, and a template that is refused for its depth has a path beyond it. -/
theorem CallTree.ofTemplate_ok_iff (template : Template) :
    ((∃ t, CallTree.ofTemplate template = .ok t) ↔ template.Followable) ∧
      (∀ t, CallTree.ofTemplate template = .ok t →
        ∀ path, t.HasNode path → path.length ≤ maxTreeDepth) ∧
      ∀ pos limit, CallTree.ofTemplate template = .error ⟨pos, .fieldsTooDeep limit⟩ →
        ∃ use ∈ listUses template, maxTreeDepth < use.length := by
  have hjudges := ofTemplate_judges template
  have hfits : Fits 0 (listUses template) ↔
      ∀ use ∈ listUses template, use.length ≤ maxTreeDepth := by
    simp only [Fits, Nat.zero_add]
  have hok : (∃ t, CallTree.ofTemplate template = .ok t) ↔ template.Followable := by
    rw [hjudges.ok_iff, hfits, Template.followable_iff]
  refine ⟨hok, fun t ht path hpath => ?_, fun pos limit he => ?_⟩
  · rcases ((listTree_adds template ht).hasNode_iff path).mp hpath with rfl | ⟨use, huse, hprefix⟩
    · exact Nat.zero_le _
    · exact Nat.le_trans hprefix.length_le ((hok.mp ⟨t, ht⟩).depth use huse)
  · by_contra hshort
    exact hjudges.not_fits _ limit he rfl (hfits.mpr fun use huse =>
      Nat.le_of_not_lt fun hlong => hshort ⟨use, huse, hlong⟩)

/-- A path as long as a tree may be deep is accepted; one name more is refused for its depth, and
the path is found to be too long. -/
theorem CallTree.ofTemplate_ok_longest :
    let p := Pos.start
    let template (count : Nat) : Template :=
      ⟨p, [.action p ⟨p, false, [], [⟨p, [.field p (List.replicate count "A")]⟩]⟩]⟩
    (template 256).Followable ∧
      CallTree.ofTemplate (template 257) = .error ⟨p, .fieldsTooDeep maxTreeDepth⟩ ∧
      ∃ use ∈ listUses (template 257), maxTreeDepth < use.length := by
  intro p template
  have htree (count : Nat) : CallTree.ofTemplate (template count) =
      if count ≤ maxTreeDepth then
        .ok (CallTree.empty.merge (.merge .empty (.ofPath (fieldSteps (.replicate count "A")))))
      else .error ⟨p, .fieldsTooDeep maxTreeDepth⟩ := by
    simp only [template, CallTree.ofTemplate, listTree, nodesTree, Node.tree, pipelineTree,
      Pipeline.indexedField?, commandsTree, commandTree, operandsTree, Operand.tree, fieldPath,
      checkDepth, List.length_replicate, Nat.zero_add]
    by_cases hcount : count ≤ maxTreeDepth
    · simp only [if_pos hcount]
      rfl
    · simp only [if_neg hcount]
      rfl
  have hrefused := (htree 257).trans (if_neg (by decide))
  exact ⟨(CallTree.ofTemplate_ok_iff _).1.mp ⟨_, (htree 256).trans (if_pos (by decide))⟩, hrefused,
    (CallTree.ofTemplate_ok_iff _).2.2 p maxTreeDepth hrefused⟩

end Fieldwise
