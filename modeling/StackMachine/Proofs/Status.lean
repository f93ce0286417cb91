import StackMachine.Command
import StackMachine.Proofs.Launch
import StackMachine.Proofs.Words

namespace StackMachine

open CommandLine (IsArgument IsPlain legacyWords)
open Text (Raw)

/-!
# Statuses of the command

* `Command.calling` — the words that call a program with integers in decimal.
* `Command.start_calling` — such a call reaches the run of the program on those very integers.
* `Command.statusOf_toInt32` — of an exit code only the remainder by 256 is left.
* `Command.status_of_integers` — adding and passing on integers from the command line.
-/

/-! ### Integers as words -/

/-- The decimal texts of integers. -/
def decimals (ns : List Int64) : List String := ns.map fun n => toString n.toInt

/-- The decimal text of an integer is no option behind a program: what is behind the minus sign are
    digits. -/
theorem CommandLine.isArgument_toString (n : Int) : IsArgument (Raw.ofString (toString n)) := by
  have hdigit : ∀ d ∈ Nat.toDigits 10 n.natAbs, d.isDigit :=
    fun _ => Nat.isDigit_of_mem_toDigits (by decide) (by decide)
  rw [Raw.ofString, toList_toString]
  split
  · refine .plain fun h => ?_
    rw [List.head?_map, Option.map_eq_some_iff] at h
    obtain ⟨d, hd, he⟩ := h
    obtain rfl : d = '-' := Text.Glyph.char.inj he
    exact absurd (hdigit '-' (List.mem_of_head? hd)) (by decide)
  · exact .negative Nat.toDigits_ne_nil hdigit

/-- The decimal texts of integers read back, one by one and from any index. -/
theorem readValues_decimals (i : Nat) (ns : List Int64) :
    readValues i (ns.map fun _ => .i64) (decimals ns) = .ok (ns.map .i64) := by
  induction ns generalizing i with
  | nil => rfl
  | cons n ns ih =>
    have hn : Value.read? .i64 (toString n.toInt) = some (.i64 n) := by
      rw [Value.read?, readInt64?_toString]
      rfl
    show readValues i (.i64 :: _) (toString n.toInt :: decimals ns) = _
    rw [readValues, hn]
    simp only [ih]
    rfl

/-- The decimal texts of integers read back, for a program of as many integer parameters. -/
theorem Program.readArguments_decimals {p : Program} {ns : List Int64}
    (hp : p.params = ns.map fun _ => .i64) :
    p.readArguments (decimals ns) = .ok (ns.map .i64) := by
  rw [readArguments, hp, if_pos (by simp [decimals]), readValues_decimals]

namespace Command

/-! ### From words to a run

The words are decimal texts, some of them negative numbers behind the program. They are taken for
arguments and not for options, and are read as the integers that they were written for.
-/

/-- The words that call a program with integers in decimal. -/
def calling (legacy : Bool) (program : String) (ns : List Int64) : List Raw :=
  (legacyWords legacy ++ program :: decimals ns).map Raw.ofString

/-- Such words are read as the program and the decimal texts, under either setting of the flag. -/
theorem read_calling (legacy : Bool) {program : String} (hp : IsPlain (Raw.ofString program))
    (ns : List Int64) : CommandLine.read (calling legacy program ns) =
      .ok { program := some program, args := decimals ns, legacy } := by
  refine CommandLine.read_words legacy hp fun a ha => ?_
  obtain ⟨n, -, rfl⟩ := List.mem_map.1 ha
  exact CommandLine.isArgument_toString n.toInt

/-- The configuration of a command line without a file, as `CommandLine.configure` has it. -/
def configOf (legacy : Bool) : Config := { unknownSyscall := if legacy then .ignore else .reject }

/-- A call of a bundled program that has as many integer parameters runs it on the integers, and
    without a log filter there are no diagnostics in front. -/
theorem start_calling {env : Environment} (henv : env.filterText? = none) (fs : FileSystem)
    (legacy : Bool) {p : Program} (hp : p ∈ Program.bundled) {ns : List Int64}
    (hplain : IsPlain (Raw.ofString p.name)) (hparams : p.params = ns.map fun _ => .i64) :
    start (calling legacy p.name ns) env fs =
      ofLaunch none [] (.ran (p.launched (configOf legacy) (ns.map .i64))) := by
  have hlaunch : launch (configOf legacy) p.name (decimals ns) =
      .ran (p.launched (configOf legacy) (ns.map .i64)) :=
    launch_of_readArguments hp (Program.readArguments_decimals hparams) rfl
  rw [start, read_calling legacy hplain ns]
  simp only [henv, ofCommandLine]
  rw [← hlaunch]
  cases legacy <;> rfl

/-! ### From a run to a status -/

/-- Both 256 and the moduli at which sums and exit codes wrap around are powers of two, and the
    smaller one divides the others. -/
theorem bmod_emod_256 {m : Nat} (h : 256 ∣ m) (n : Int) : n.bmod m % 256 = n % 256 := by
  have hm : (256 : Int) ∣ m := Int.natCast_dvd_natCast.2 h
  rw [← Int.emod_emod_of_dvd _ hm, Int.bmod_emod, Int.emod_emod_of_dvd _ hm]

/-- Of an exit code `statusOf` keeps the remainder by 256, which cutting to 32 bits does not
    change. -/
theorem statusOf_toInt32 (n : Int64) : (statusOf n.toInt32 : Int) = n.toInt % 256 := by
  have hnonneg : 0 ≤ n.toInt32.toInt % 256 := Int.emod_nonneg _ (by decide)
  rw [statusOf, Int.toNat_of_nonneg hnonneg, Int64.toInt_toInt32, bmod_emod_256 (by decide)]

end Command

/-- The process ends with this status, prints the report of its running time, and says nothing
    else. -/
def Outcome.OnlyReports (o : Outcome) (status : Int) : Prop :=
  o.status = status ∧ o.stderr = [] ∧
    ∀ seconds, o.stdout.map (Line.render seconds) =
      ["Finished in " ++ seconds o.elapsed ++ " seconds"]

namespace Command

/-- A launch that exits on an integer and prints its report is seen as such. -/
theorem ofLaunch_exited {r : Run Answer} {n : Int64} (h : r.result = .error (.exited n.toInt32))
    (hout : r.output = [.report r.machine.elapsed]) :
    (ofLaunch none [] (.ran r)).OnlyReports (n.toInt % 256) := by
  simp only [ofLaunch, h, hout]
  exact ⟨statusOf_toInt32 n, rfl, fun _ => rfl⟩

/-- **Arithmetic of the command line.** For any two 64-bit integers in decimal the command reads
    both as arguments, adds or passes on, and ends with the true sum, or the integer, modulo 256.
    Neither signs nor the two places where the sum wraps around show. -/
theorem status_of_integers {env : Environment} (henv : env.filterText? = none) (fs : FileSystem)
    (legacy : Bool) (a b : Int64) :
    (CommandLine.read (calling legacy "add_exit" [a, b]) =
        .ok { program := some "add_exit", args := [toString a.toInt, toString b.toInt], legacy } ∧
      Program.addExit.readArguments [toString a.toInt, toString b.toInt] = .ok [.i64 a, .i64 b] ∧
      (start (calling legacy "add_exit" [a, b]) env fs).OnlyReports ((a.toInt + b.toInt) % 256)) ∧
    CommandLine.read (calling legacy "exit" [a]) =
        .ok { program := some "exit", args := [toString a.toInt], legacy } ∧
      Program.exit.readArguments [toString a.toInt] = .ok [.i64 a] ∧
      (start (calling legacy "exit" [a]) env fs).OnlyReports (a.toInt % 256) := by
  have hadd : IsPlain (Raw.ofString "add_exit") := by decide
  have hexit : IsPlain (Raw.ofString "exit") := by decide
  refine ⟨⟨read_calling legacy hadd [a, b], ?_, ?_⟩, read_calling legacy hexit [a], ?_, ?_⟩
  · show Program.addExit.readArguments (decimals [a, b]) = _
    exact Program.readArguments_decimals rfl
  · -- the sum wraps around at 64 bits and the exit code at 32, and `bmod_emod_256` undoes both
    have hstart : start (calling legacy "add_exit" [a, b]) env fs =
        ofLaunch none [] (.ran (Program.addExit.launched (configOf legacy) [.i64 a, .i64 b])) :=
      start_calling henv fs legacy (p := .addExit) (by simp [Program.bundled]) hadd rfl
    have hsum : (a + b).toInt % 256 = (a.toInt + b.toInt) % 256 := by
      rw [Int64.toInt_add, bmod_emod_256 (by decide)]
    rw [hstart, ← hsum]
    exact ofLaunch_exited rfl rfl
  · show Program.exit.readArguments (decimals [a]) = _
    exact Program.readArguments_decimals rfl
  · have hstart : start (calling legacy "exit" [a]) env fs =
        ofLaunch none [] (.ran (Program.exit.launched (configOf legacy) [.i64 a])) :=
      start_calling henv fs legacy (p := .exit) (by simp [Program.bundled]) hexit rfl
    rw [hstart]
    exact ofLaunch_exited rfl rfl

/-- The smallest integer twice makes a multiple of 256, and minus one by itself the largest
    status. -/
theorem status_of_smallest :
    (start (["--legacy-syscalls", "add_exit", "-9223372036854775808", "-9223372036854775808"].map
      Raw.ofString) [] fun _ => .error .notFound).status = 0 ∧
    (start (["exit", "-1"].map Raw.ofString) [] fun _ => .error .notFound).status = 255 := by
  have henv : Environment.filterText? [] = none := rfl
  have hadd := (status_of_integers henv (fun _ => .error .notFound) true
    Int64.minValue Int64.minValue).1.2.2.1
  have hexit := (status_of_integers henv (fun _ => .error .notFound) false (-1) 0).2.2.2.1
  exact ⟨Int.ofNat_inj.1 hadd, Int.ofNat_inj.1 hexit⟩

end Command

end StackMachine
