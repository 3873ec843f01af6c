import InfoFlow.Replay

/-! # The grammar of the arguments

The arguments of the replay command are read from left to right as groups, an option with its value or a flag. They
are accepted if they are groups from the first to the last and one of them names a trace. What is asked for is then
told by the last group of each option, so groups of different options may change places. Arguments that are no
groups are refused for what stands behind the groups in front. -/

namespace InfoFlow.Replay

inductive Group where
  | trace (value : String)
  | config (value : String)
  | keepGoing
deriving DecidableEq

namespace Group

def option : Group → String
  | .trace _ => "--trace"
  | .config _ => "--config"
  | .keepGoing => "--keep-going"

def trace? : Group → Option String
  | .trace value => some value
  | _ => none

def config? : Group → Option String
  | .config value => some value
  | _ => none

/-- The arguments that a group consists of. -/
def words : Group → List String
  | .trace value => ["--trace", value]
  | .config value => ["--config", value]
  | .keepGoing => ["--keep-going"]

end Group

def written (groups : List Group) : List String := groups.flatMap Group.words

/-- What groups ask for. -/
structure Asks (groups : List Group) (asked : Arguments) : Prop where
  trace : (groups.filterMap Group.trace?).getLast? = some asked.trace
  config : (groups.filterMap Group.config?).getLast? = asked.config
  keepGoing : asked.keepGoing = true ↔ .keepGoing ∈ groups

def options : List String := ["--trace", "--config", "--keep-going"]

/-- There are arguments with no group in front of them, and why. -/
inductive Misfit : List String → ArgumentError → Prop where
  | missingValue {option : String} : option = "--trace" ∨ option = "--config" →
      Misfit [option] (.missingValue option)
  | help {argument : String} {rest : List String} : argument = "--help" ∨ argument = "-h" →
      Misfit (argument :: rest) .usage
  | unknown {argument : String} {rest : List String} :
      argument ∉ options → argument ≠ "--help" → argument ≠ "-h" →
      Misfit (argument :: rest) (.unknown argument)

/-- The lists have the same groups of each option, in the same order among themselves. -/
def Reordered (groups groups' : List Group) : Prop :=
  ∀ option ∈ options, groups.filter (·.option == option) = groups'.filter (·.option == option)

instance (groups groups' : List Group) : Decidable (Reordered groups groups') :=
  inferInstanceAs (Decidable (∀ option ∈ options, _))

variable {groups groups' : List Group} {found : Groups} {arguments rest : List String} {asked : Arguments}
variable {e : ArgumentError}

/-! ### What groups ask for -/

def Groups.add (found : Groups) : Group → Groups
  | .trace value => { found with trace := some value }
  | .config value => { found with config := some value }
  | .keepGoing => { found with keepGoing := true }

/-- Of several groups for one option the last one counts. -/
theorem Groups.foldl_add : groups.foldl Groups.add found =
    ⟨(groups.filterMap Group.trace?).getLast?.or found.trace, (groups.filterMap Group.config?).getLast?.or found.config,
      decide (.keepGoing ∈ groups) || found.keepGoing⟩ := by
  induction groups generalizing found with
  | nil => rfl
  | cons g groups ih =>
    rw [List.foldl_cons, ih]
    cases g with
    | trace value => simp [Groups.add, Group.trace?, Group.config?, List.getLast?_cons]
    | config value => simp [Groups.add, Group.trace?, Group.config?, List.getLast?_cons]
    | keepGoing => simp [Groups.add, Group.trace?, Group.config?]

theorem Asks.foldl_add (h : Asks groups asked) :
    groups.foldl Groups.add {} = ⟨some asked.trace, asked.config, asked.keepGoing⟩ := by
  have hkeepGoing : decide (.keepGoing ∈ groups) = asked.keepGoing :=
    Bool.eq_iff_iff.mpr (decide_eq_true_iff.trans h.keepGoing.symm)
  simp only [Groups.foldl_add, h.trace, h.config, hkeepGoing, Option.or_none, Bool.or_false]

theorem asks_or_traceless (groups : List Group) : (∃ asked, Asks groups asked) ∨ ∀ value, .trace value ∉ groups := by
  cases htrace : (groups.filterMap Group.trace?).getLast? with
  | some trace =>
    refine Or.inl ⟨⟨trace, (groups.filterMap Group.config?).getLast?, decide (.keepGoing ∈ groups)⟩, htrace, rfl, ?_⟩
    exact decide_eq_true_iff
  | none =>
    refine Or.inr fun value hvalue => ?_
    have hnone := List.filterMap_eq_nil_iff.mp (List.getLast?_eq_none_iff.mp htrace) _ hvalue
    cases hnone

theorem filterMap_filter_option {f : Group → Option String} {option : String}
    (hf : ∀ g, g.option ≠ option → f g = none) :
    (groups.filter (·.option == option)).filterMap f = groups.filterMap f := by
  rw [List.filterMap_filter]
  refine congrArg (List.filterMap · groups) (funext fun g => ?_)
  split
  · rfl
  · rename_i hne
    exact (hf g (by simpa using hne)).symm

theorem Reordered.foldl_add (h : Reordered groups groups') :
    groups.foldl Groups.add found = groups'.foldl Groups.add found := by
  have same {option : String} (hoption : option ∈ options) {f : Group → Option String}
      (hf : ∀ g, g.option ≠ option → f g = none) : groups.filterMap f = groups'.filterMap f := by
    rw [← filterMap_filter_option hf, h option hoption, filterMap_filter_option hf]
  have htrace : groups.filterMap Group.trace? = groups'.filterMap Group.trace? := by
    refine same (List.mem_cons_self : "--trace" ∈ options) fun g hg => ?_
    cases g with
    | trace value => exact absurd rfl hg
    | config | keepGoing => rfl
  have hconfig : groups.filterMap Group.config? = groups'.filterMap Group.config? := by
    refine same (by decide : "--config" ∈ options) fun g hg => ?_
    cases g with
    | config value => exact absurd rfl hg
    | trace | keepGoing => rfl
  have hkeepGoing : .keepGoing ∈ groups ↔ .keepGoing ∈ groups' := by
    have hflags := congrArg (Group.keepGoing ∈ ·) (h "--keep-going" (by decide))
    simpa [Group.option] using hflags
  simp only [Groups.foldl_add, htrace, hconfig, hkeepGoing]

/-! ### Reading groups -/

theorem readGroups_written (groups : List Group) (rest : List String) :
    readGroups found (written groups ++ rest) = readGroups (groups.foldl Groups.add found) rest := by
  induction groups generalizing found with
  | nil => rfl
  | cons g groups ih =>
    rw [written, List.flatMap_cons, List.append_assoc, List.foldl_cons, ← ih]
    cases g <;> rfl

theorem readGroups_of_misfit (h : Misfit rest e) : readGroups found rest = .error e := by
  cases h with
  | missingValue h => rcases h with rfl | rfl <;> rfl
  | help h => rcases h with rfl | rfl <;> rfl
  | @unknown argument tail hoption hhelp hh =>
    simp only [options, List.mem_cons, List.not_mem_nil, or_false, not_or] at hoption
    obtain ⟨htrace, hconfig, hflag⟩ := hoption
    rw [readGroups]
    · rw [if_neg (not_or.mpr ⟨htrace, hconfig⟩), if_neg (not_or.mpr ⟨hhelp, hh⟩)]
    · exact fun value rest h _ => htrace h
    · exact fun value rest h _ => hconfig h
    · exact hflag

/-- Behind the groups in front there is nothing, or something that is no group. -/
theorem exists_groups (found : Groups) (arguments : List String) :
    ∃ groups rest, arguments = written groups ++ rest ∧ (rest = [] ∨ ∃ e, Misfit rest e) := by
  -- The induction follows the reading; what it has found so far plays no part.
  fun_induction readGroups found arguments with
  | case1 => exact ⟨[], [], rfl, Or.inl rfl⟩
  | case2 found value tail ih =>
    obtain ⟨groups, rest, rfl, hrest⟩ := ih
    exact ⟨.trace value :: groups, rest, rfl, hrest⟩
  | case3 found value tail ih =>
    obtain ⟨groups, rest, rfl, hrest⟩ := ih
    exact ⟨.config value :: groups, rest, rfl, hrest⟩
  | case4 found tail ih =>
    obtain ⟨groups, rest, rfl, hrest⟩ := ih
    exact ⟨.keepGoing :: groups, rest, rfl, hrest⟩
  | case5 found argument tail htrace hconfig _ hoption =>
    have hlast : tail = [] := by
      cases tail with
      | nil => rfl
      | cons value tail =>
        rcases hoption with hoption | hoption
        · exact (htrace value tail hoption rfl).elim
        · exact (hconfig value tail hoption rfl).elim
    subst hlast
    exact ⟨[], _, rfl, Or.inr ⟨_, .missingValue hoption⟩⟩
  | case6 found argument tail _ _ _ _ hhelp => exact ⟨[], _, rfl, Or.inr ⟨_, .help hhelp⟩⟩
  | case7 found argument tail _ _ hflag hoption hhelp =>
    have hnone : argument ∉ options := by
      simp only [options, List.mem_cons, List.not_mem_nil, or_false, not_or]
      exact ⟨fun h => hoption (Or.inl h), fun h => hoption (Or.inr h), hflag⟩
    exact ⟨[], _, rfl, Or.inr ⟨_, .unknown hnone (fun h => hhelp (Or.inl h)) fun h => hhelp (Or.inr h)⟩⟩

theorem Misfit.ne_words_append (h : Misfit rest e) (g : Group) (tail : List String) : rest ≠ g.words ++ tail := by
  rintro rfl
  cases g with
  | trace value | config value =>
    cases h with
    | help h => simp at h
    | unknown h => simp [options] at h
  | keepGoing =>
    cases h with
    | missingValue h => simp at h
    | help h => simp at h
    | unknown h => simp [options] at h

/-- What is no group is what no group can be split off. -/
theorem exists_misfit_iff : (∃ e, Misfit rest e) ↔ rest ≠ [] ∧ ∀ g tail, rest ≠ Group.words g ++ tail := by
  refine ⟨fun ⟨e, hrest⟩ => ⟨?_, hrest.ne_words_append⟩, fun ⟨hrest, hgroup⟩ => ?_⟩
  · rintro rfl
    cases hrest
  · obtain ⟨groups, behind, heq, hbehind⟩ := exists_groups {} rest
    cases groups with
    | nil =>
      obtain rfl : rest = behind := heq
      exact hbehind.resolve_left hrest
    | cons g groups =>
      rw [written, List.flatMap_cons, List.append_assoc] at heq
      exact absurd heq (hgroup g _)

/-! ### Reading arguments -/

theorem readGroups_all (groups : List Group) :
    readGroups found (written groups) = .ok (groups.foldl Groups.add found) := by
  rw [← List.append_nil (written groups), readGroups_written, readGroups]

theorem parse_of_asks (h : Asks groups asked) : Arguments.parse (written groups) = .ok asked := by
  rw [Arguments.parse, readGroups_all, h.foldl_add]

theorem parse_of_traceless (h : ∀ value, .trace value ∉ groups) :
    Arguments.parse (written groups) = .error .usage := by
  have hnone : groups.filterMap Group.trace? = [] := by
    refine List.filterMap_eq_nil_iff.mpr fun g hg => ?_
    cases g with
    | trace value => exact absurd hg (h value)
    | config | keepGoing => rfl
  rw [Arguments.parse, readGroups_all, Groups.foldl_add, hnone]
  rfl

theorem parse_of_misfit (h : Misfit rest e) : Arguments.parse (written groups ++ rest) = .error e := by
  rw [Arguments.parse, readGroups_written, readGroups_of_misfit h]

theorem parse_of_reordered (h : Reordered groups groups') (rest : List String) :
    Arguments.parse (written groups ++ rest) = Arguments.parse (written groups' ++ rest) := by
  rw [Arguments.parse, Arguments.parse, readGroups_written, readGroups_written, h.foldl_add]

/-- What becomes of any arguments. -/
inductive Reading : List String → Prop where
  | accepted {groups : List Group} {asked : Arguments} : Asks groups asked → Reading (written groups)
  | traceless {groups : List Group} : (∀ value, .trace value ∉ groups) → Reading (written groups)
  | misfit {groups : List Group} {rest : List String} {e : ArgumentError} : Misfit rest e →
      Reading (written groups ++ rest)

theorem reading (arguments : List String) : Reading arguments := by
  obtain ⟨groups, rest, rfl, rfl | ⟨e, hrest⟩⟩ := exists_groups {} arguments
  · rw [List.append_nil]
    rcases asks_or_traceless groups with ⟨asked, hasked⟩ | hnone
    · exact .accepted hasked
    · exact .traceless hnone
  · exact .misfit hrest

theorem parse_eq_ok_iff :
    Arguments.parse arguments = .ok asked ↔ ∃ groups, arguments = written groups ∧ Asks groups asked := by
  refine ⟨fun h => ?_, fun ⟨groups, hwritten, hasked⟩ => hwritten ▸ parse_of_asks hasked⟩
  cases reading arguments with
  | @accepted groups asked' hasked =>
    obtain rfl := Except.ok.inj ((parse_of_asks hasked).symm.trans h)
    exact ⟨groups, rfl, hasked⟩
  | traceless hnone => cases (parse_of_traceless hnone).symm.trans h
  | misfit hrest => cases (parse_of_misfit hrest).symm.trans h

theorem parse_eq_error_iff :
    Arguments.parse arguments = .error e ↔
      (∃ groups rest, arguments = written groups ++ rest ∧ Misfit rest e) ∨
        e = .usage ∧ ∃ groups, arguments = written groups ∧ ∀ value, .trace value ∉ groups := by
  constructor
  · intro h
    cases reading arguments with
    | accepted hasked => cases (parse_of_asks hasked).symm.trans h
    | @traceless groups hnone =>
      obtain rfl := Except.error.inj ((parse_of_traceless hnone).symm.trans h)
      exact Or.inr ⟨rfl, groups, rfl, hnone⟩
    | @misfit groups rest e' hrest =>
      obtain rfl := Except.error.inj ((parse_of_misfit hrest).symm.trans h)
      exact Or.inl ⟨groups, rest, rfl, hrest⟩
  · rintro (⟨groups, rest, rfl, hrest⟩ | ⟨rfl, groups, rfl, hnone⟩)
    · exact parse_of_misfit hrest
    · exact parse_of_traceless hnone

/-- Every list of arguments is accepted or refused as the grammar of groups says, by the first place where no group
can be split off if there is one, and groups of different options may change places. -/
theorem arguments_read :
    (∀ arguments asked, Arguments.parse arguments = .ok asked ↔
        ∃ groups, arguments = written groups ∧ Asks groups asked) ∧
      (∀ arguments e, Arguments.parse arguments = .error e ↔
        (∃ groups rest, arguments = written groups ++ rest ∧ Misfit rest e) ∨
          e = .usage ∧ ∃ groups, arguments = written groups ∧ ∀ value, .trace value ∉ groups) ∧
      (∀ rest, (∃ e, Misfit rest e) ↔ rest ≠ [] ∧ ∀ g tail, rest ≠ Group.words g ++ tail) ∧
      ∀ groups groups', Reordered groups groups' → ∀ rest,
        Arguments.parse (written groups ++ rest) = Arguments.parse (written groups' ++ rest) :=
  ⟨fun _ _ => parse_eq_ok_iff, fun _ _ => parse_eq_error_iff, fun _ => exists_misfit_iff,
    fun _ _ h rest => parse_of_reordered h rest⟩

/-- Options whose values look like options. -/
def lookalikes : List Group := [.trace "a", .config "--trace", .keepGoing, .trace "--help"]

def lookalikesReordered : List Group := [.keepGoing, .trace "a", .trace "--help", .config "--trace"]

theorem arguments_read_lookalikes :
    Reordered lookalikes lookalikesReordered ∧
      Arguments.parse (written lookalikes ++ ["-h", "--trace"]) =
        Arguments.parse (written lookalikesReordered ++ ["-h", "--trace"]) ∧
      Arguments.parse (written lookalikes) = .ok ⟨"--help", some "--trace", true⟩ := by
  have hreordered : Reordered lookalikes lookalikesReordered := by decide
  have hasks : Asks lookalikes ⟨"--help", some "--trace", true⟩ := ⟨rfl, rfl, by decide⟩
  have hparse := (arguments_read.1 _ _).mpr ⟨lookalikes, rfl, hasks⟩
  exact ⟨hreordered, arguments_read.2.2.2 _ _ hreordered _, hparse⟩

end InfoFlow.Replay
