import Stationary.Proofs.CommandFailure

/-!
# How commands end

A command ends in one of the documented ways (`Command.Result.IsDocumented`) : with exit code zero
and something on standard output, or with exit code one or two, nothing there and an error as the
last line on standard error. `Command.Ends` tells the ways apart by the arguments. There are
two others, a tolerance that is undefined and a budget that the counter cannot reach
(`Command.ends_execute`).

Two layers of checks have to agree for this. Switches that are read leave a tolerance that is not
below zero, and the settings of the solver ask for one that is at least zero; these are the
same but for a number that compares with nothing (`Command.nonneg_iff`). The other settings
of a request are always accepted. The policy then has a mask, residual and Jacobian have the
right shapes, and a pivot threshold is never given; so the start has a result and the run has one
or no end (`Command.Request.Makes.exists_run`), and a failure of the run is never reported.
-/

set_option linter.unusedSectionVars false

namespace Stationary.Command

open RoundedArithmetic
open Float.Model (UnpackedFloat)

/-! ## Tolerances -/

/-- The undefined number is the one without a value. -/
theorem isNaN_iff_value (x : Float) : x.isNaN = true ↔ value x = none := by
  have hunpack : x.isNaN = (BinaryFormat.unpack x).isNaN := rfl
  rw [hunpack, RoundedFormat.value_eq]
  cases BinaryFormat.unpack x with
  | notANumber => exact ⟨fun _ => rfl, fun _ => rfl⟩
  | infinity sign => cases sign <;> simp [valueOf, UnpackedFloat.isNaN]
  | zero sign => simp [valueOf, UnpackedFloat.isNaN]
  | finite sign mantissa exponent hpos => simp [valueOf, UnpackedFloat.isNaN]

/-- A number that is not negative is at least zero, unless it is undefined. -/
theorem nonneg_iff {x : Float} (h : ¬x < 0) : 0 ≤ x ↔ x.isNaN = false := by
  rw [← Bool.not_eq_true, isNaN_iff_value]
  constructor
  · intro hx hnone
    obtain ⟨-, a, -, ha, -⟩ := (le_iff 0 x).1 (decide_eq_true hx)
    rw [hnone] at ha
    cases ha
  · intro hsome
    obtain ⟨a, ha⟩ := Option.ne_none_iff_exists'.1 hsome
    exact nonneg_of_value h ha

/-- Of the settings of a request only the tolerance can be refused. -/
theorem ofSettings_of_not_nonneg {r : Request} (h : ¬0 ≤ r.tolerance) :
    Solver.ofSettings r.settings = .error (.negativeTolerance "atol" (.float r.tolerance)) := by
  have htolerance : Solver.checkTolerance "atol" (.float r.tolerance) =
      .error (.negativeTolerance "atol" (.float r.tolerance)) :=
    if_neg fun hle => h (of_decide_eq_true hle)
  unfold Solver.ofSettings Request.settings
  rw [checkBudget_natCast, htolerance]
  rfl

/-- All undefined numbers are one. -/
theorem eq_of_isNaN {x : Float} (h : x.isNaN = true) : x = BinaryFormat.pack .notANumber := by
  have hunpack : BinaryFormat.unpack x = .notANumber := by
    have hnan : (BinaryFormat.unpack x).isNaN = true := h
    revert hnan
    cases BinaryFormat.unpack x <;> simp [UnpackedFloat.isNaN]
  rw [← BinaryFormat.pack_unpack x, hunpack]

/-- What the solver says of an undefined tolerance. -/
theorem message_of_isNaN {x : Float} (h : x.isNaN = true) :
    (SettingsError.negativeTolerance "atol" (.float x)).message? =
      some "atol must be >= 0, got nan" := by
  rw [eq_of_isNaN h]
  decide +kernel

/-! ## Runs -/

section Formats

variable {α : Type} [Elementary α] [FloatFormat α] [Decomposes α] {r : Request} {solver : Solver}

/-- The result shows a solution : with the report and exit code zero if the run converged, and
otherwise with exit code one, nothing on standard output and the reason as the last line on
standard error. -/
def Result.Shows (result : Result) (s : Solution α 6) : Prop :=
  if s.converged then result.exitCode = 0 ∧ result.output = report s
  else result.exitCode = 1 ∧ result.output = [] ∧
    result.errors.getLast? = some (.text ("Error: " ++ failureText s))

variable (α) in
/-- In the format the settings are accepted, start and run have results, and the solution is
shown. -/
def RunsIn (r : Request) (y : Vector Float 6) (result : Result) : Prop :=
  ∃ solver s₀ s, Solver.ofSettings r.settings = .ok solver ∧
    ((solver.newton α).init (Kkt.standard : Kkt α).system (y.map FloatFormat.ofFloat)).value =
      .ok s₀ ∧
    ((solver.newton α).run (Kkt.standard : Kkt α).system (y.map FloatFormat.ofFloat)).value =
      .ok s ∧
    result.Shows s

theorem shows_of_conclude {s : Solution α 6} {result : Result} {lines : List ErrorLine}
    (h : { conclude s with errors := lines ++ (conclude s).errors } = result) :
    result.Shows s := by
  subst h
  unfold Result.Shows conclude
  cases s.converged with
  | true => exact ⟨rfl, rfl⟩
  | false => exact ⟨rfl, rfl, List.getLast?_concat⟩

/-- The run of a request shows its solution, or has no end. -/
theorem Request.Makes.runsIn (h : r.Makes solver) (y : Vector Float 6) :
    (∃ result, runIn α r solver y = .ok result ∧ RunsIn α r y result) ∨
      ¬r.Counts ∧ runIn α r solver y = .error .endless := by
  obtain ⟨⟨s₀, h₀⟩, ⟨s, hrun⟩ | ⟨hcount, hrun⟩⟩ :=
    h.exists_run (α := α) (y.map FloatFormat.ofFloat)
  · obtain ⟨lines, hlines⟩ := exists_runIn_eq (α := α) r solver y
    rw [hrun] at hlines
    exact Or.inl ⟨_, hlines, solver, s₀, s, h.ofSettings, h₀, hrun, shows_of_conclude rfl⟩
  · obtain ⟨lines, hlines⟩ := exists_runIn_eq (α := α) r solver y
    rw [hrun] at hlines
    exact Or.inr ⟨hcount, hlines⟩

end Formats

/-! ## Commands -/

/-- The ways in which a command ends, or has no end. -/
inductive Ends (width : Nat) (arguments : List String) : Except Escape Result → Prop
  | help : task arguments = .ok .showHelp → Ends width arguments (.ok (showHelp width))
  | misuse {e : UsageError} : task arguments = .error e → Ends width arguments (.ok (refuse e))
  | guess {r : Request} {e : UsageError} : task arguments = .ok (.solve r) →
      r.start? = .error e → Ends width arguments (.ok (refuse e))
  | wide {r : Request} {y : Vector Float 6} {result : Result} :
      task arguments = .ok (.solve r) → r.start? = .ok y → r.tolerance.isNaN = false →
      r.wide = true → RunsIn Binary64 r y result → Ends width arguments (.ok result)
  | narrow {r : Request} {y : Vector Float 6} {result : Result} :
      task arguments = .ok (.solve r) → r.start? = .ok y → r.tolerance.isNaN = false →
      r.wide = false → RunsIn Binary32 r y result → Ends width arguments (.ok result)
  /-- The solver refuses a tolerance that the switches have let pass. -/
  | undefined {r : Request} {y : Vector Float 6} : task arguments = .ok (.solve r) →
      r.start? = .ok y → r.tolerance.isNaN = true →
      Ends width arguments (.error (.refused (.negativeTolerance "atol" (.float r.tolerance))))
  /-- The counter cannot reach the budget, and the run goes on for ever. -/
  | endless {r : Request} {y : Vector Float 6} : task arguments = .ok (.solve r) →
      r.start? = .ok y → r.tolerance.isNaN = false → ¬r.Counts →
      Ends width arguments (.error .endless)

section Arguments

variable {arguments : List String} {r : Request} {y : Vector Float 6}

/-- An undefined tolerance is refused as if it were negative. -/
theorem execute_of_isNaN (htask : task arguments = .ok (.solve r)) (hstart : r.start? = .ok y)
    (hnan : r.tolerance.isNaN = true) (width : Nat) :
    execute width arguments =
      .error (.refused (.negativeTolerance "atol" (.float r.tolerance))) := by
  have hsign : ¬0 ≤ r.tolerance := by
    rw [nonneg_iff (not_neg_of_task htask), hnan]
    decide
  unfold execute
  rw [htask]
  show fulfil r = _
  unfold fulfil
  rw [hstart, ofSettings_of_not_nonneg hsign]
  rfl

/-- A command that reaches the solver ends by its run, if this has an end, or by an undefined
tolerance. -/
theorem ends_of_start (htask : task arguments = .ok (.solve r)) (hstart : r.start? = .ok y)
    (width : Nat) : Ends width arguments (execute width arguments) := by
  cases hnan : r.tolerance.isNaN with
  | true =>
    rw [execute_of_isNaN htask hstart hnan]
    exact .undefined htask hstart hnan
  | false =>
    obtain ⟨solver, hsolver⟩ := exists_makes r ((nonneg_iff (not_neg_of_task htask)).2 hnan)
    rw [execute_of_start htask hstart hsolver.ofSettings]
    cases hwide : r.wide with
    | true =>
      rw [if_pos rfl]
      rcases hsolver.runsIn (α := Binary64) y with ⟨result, hrun, hruns⟩ | ⟨hcount, hrun⟩
      · rw [hrun]
        exact .wide htask hstart hnan hwide hruns
      · rw [hrun]
        exact .endless htask hstart hnan hcount
    | false =>
      rw [if_neg Bool.false_ne_true]
      rcases hsolver.runsIn (α := Binary32) y with ⟨result, hrun, hruns⟩ | ⟨hcount, hrun⟩
      · rw [hrun]
        exact .narrow htask hstart hnan hwide hruns
      · rw [hrun]
        exact .endless htask hstart hnan hcount

theorem ends_execute (width : Nat) (arguments : List String) :
    Ends width arguments (execute width arguments) := by
  cases htask : task arguments with
  | error e =>
    have hexecute : execute width arguments = .ok (refuse e) := by
      unfold execute
      rw [htask]
    rw [hexecute]
    exact .misuse htask
  | ok t =>
    cases t with
    | showHelp =>
      have hexecute : execute width arguments = .ok (showHelp width) := by
        unfold execute
        rw [htask]
      rw [hexecute]
      exact .help htask
    | solve r =>
      cases hstart : r.start? with
      | error e =>
        have hexecute : execute width arguments = .ok (refuse e) := by
          unfold execute fulfil
          rw [htask]
          dsimp only
          rw [hstart]
        rw [hexecute]
        exact .guess htask hstart
      | ok y => exact ends_of_start htask hstart width

end Arguments

/-- The only refusal is that of an undefined tolerance. -/
theorem Ends.of_refused {width : Nat} {arguments : List String} {e : SettingsError}
    (h : Ends width arguments (.error (.refused e))) : ∃ r y, task arguments = .ok (.solve r) ∧
      r.start? = .ok y ∧ r.tolerance.isNaN = true ∧
      e = .negativeTolerance "atol" (.float r.tolerance) := by
  cases h with
  | undefined htask hstart hnan => exact ⟨_, _, htask, hstart, hnan, rfl⟩

/-- There is no end only where the counter cannot reach the budget. -/
theorem Ends.of_endless {width : Nat} {arguments : List String}
    (h : Ends width arguments (.error .endless)) : ∃ r y, task arguments = .ok (.solve r) ∧
      r.start? = .ok y ∧ r.tolerance.isNaN = false ∧ ¬r.Counts := by
  cases h with
  | endless htask hstart hnan hcount => exact ⟨_, _, htask, hstart, hnan, hcount⟩

/-- Exit code zero with something on standard output, or one or two with nothing there and an
error as the last line on standard error. -/
def Result.IsDocumented (result : Result) : Prop :=
  (result.exitCode = 0 ∧ result.output ≠ []) ∨
    ((result.exitCode = 1 ∨ result.exitCode = 2) ∧ result.output = [] ∧
      ∃ message, result.errors.getLast? = some (.text ("Error: " ++ message)))

theorem isDocumented_refuse (e : UsageError) : (refuse e).IsDocumented :=
  Or.inr ⟨Or.inr rfl, rfl, e.message, List.getLast?_concat⟩

theorem isDocumented_showHelp (width : Nat) : (showHelp width).IsDocumented :=
  Or.inl ⟨rfl, by simp [showHelp, helpPage]⟩

theorem Result.Shows.isDocumented {α : Type} [Elementary α] [FloatFormat α] {s : Solution α 6}
    {result : Result} (h : result.Shows s) : result.IsDocumented := by
  unfold Result.Shows at h
  split at h
  · obtain ⟨hcode, hreport⟩ := h
    refine Or.inl ⟨hcode, ?_⟩
    rw [hreport]
    exact List.cons_ne_nil _ _
  · obtain ⟨hcode, houtput, hlast⟩ := h
    exact Or.inr ⟨Or.inl hcode, houtput, _, hlast⟩

theorem Ends.isDocumented {width : Nat} {arguments : List String} {result : Result}
    (h : Ends width arguments (.ok result)) : result.IsDocumented := by
  cases h with
  | help _ => exact isDocumented_showHelp width
  | misuse _ => exact isDocumented_refuse _
  | guess _ _ => exact isDocumented_refuse _
  | wide _ _ _ _ hruns | narrow _ _ _ _ hruns =>
    obtain ⟨solver, s₀, s, -, -, -, hshows⟩ := hruns
    exact hshows.isDocumented

/-- Every command ends in one of these ways, and so as documented, unless it reaches the solver with
a tolerance that is undefined, or with a budget that the counter cannot reach. With an undefined
tolerance, and with no other, the settings are refused, for nothing but the tolerance and with
this text; with all others they are accepted, the start has a result, and the run has one if
the counter can reach the budget. -/
theorem ends_as_documented_unless_undefined (width : Nat) (arguments : List String) :
    Ends width arguments (execute width arguments) ∧
    ((∀ r y, task arguments = .ok (.solve r) → r.start? = .ok y →
      r.tolerance.isNaN = false ∧ r.Counts) → ∃ result, execute width arguments = .ok result) ∧
    (∀ result, execute width arguments = .ok result → result.IsDocumented) ∧
    ((∃ e, execute width arguments = .error (.refused e)) ↔
      ∃ r y, task arguments = .ok (.solve r) ∧ r.start? = .ok y ∧ r.tolerance.isNaN = true) ∧
    ∀ e, execute width arguments = .error (.refused e) →
      e.errorKind = .valueError ∧ e.message? = some "atol must be >= 0, got nan" := by
  have hends := ends_execute width arguments
  refine ⟨hends, fun hreach => ?_, fun result hresult => ?_, ⟨fun ⟨e, he⟩ => ?_,
    fun ⟨r, y, htask, hstart, hnan⟩ => ⟨_, execute_of_isNaN htask hstart hnan width⟩⟩,
    fun e he => ?_⟩
  · cases hexecute : execute width arguments with
    | ok result => exact ⟨result, rfl⟩
    | error escape =>
      rw [hexecute] at hends
      cases escape with
      | refused e =>
        obtain ⟨r, y, htask, hstart, hnan, -⟩ := hends.of_refused
        rw [(hreach r y htask hstart).1] at hnan
        cases hnan
      | endless =>
        obtain ⟨r, y, htask, hstart, -, hcount⟩ := hends.of_endless
        exact absurd (hreach r y htask hstart).2 hcount
  · rw [hresult] at hends
    exact hends.isDocumented
  · rw [he] at hends
    obtain ⟨r, y, htask, hstart, hnan, -⟩ := hends.of_refused
    exact ⟨r, y, htask, hstart, hnan⟩
  · rw [he] at hends
    obtain ⟨r, y, -, -, hnan, rfl⟩ := hends.of_refused
    exact ⟨rfl, message_of_isNaN hnan⟩

/-- With an undefined tolerance the command does not end as documented : the solver refuses what the
switch has accepted. -/
theorem undefined_tolerance_escapes :
    ∃ e, execute pageWidth ["-t", "nan"] = .error (.refused e) ∧ e.errorKind = .valueError ∧
      e.message? = some "atol must be >= 0, got nan" := by
  have hrefused : (match execute pageWidth ["-t", "nan"] with
      | .error (.refused _) => true
      | _ => false) = true := by decide +kernel
  have hends := ends_execute pageWidth ["-t", "nan"]
  split at hrefused
  · rename_i e hexecute
    rw [hexecute] at hends
    obtain ⟨r, y, -, -, hnan, rfl⟩ := hends.of_refused
    exact ⟨_, hexecute, rfl, message_of_isNaN hnan⟩
  · cases hrefused

end Stationary.Command
