import Mathlib.Algebra.Group.Nat.Defs
import StackMachine.Proofs.Arguments

namespace StackMachine

/-!
# What launching a program comes to

`Program.Comes` has a case for each bundled program, so it reads as a table of them. Each case is
checked by running that program on arguments that are variables.

* `Program.Comes policy name args result output` — how the bundled program of a name ends on its
  arguments, and what it prints.
* `Program.launched_comes` — that is what a run of it on a machine just built comes to.
* `launch_complete` — the outcome of every launch.
-/

namespace Program

/-- How the bundled program of a name ends on its arguments under a policy for unbound names, and
    the lines it prints. There is one constructor for each program, but two for
    `unknown_syscall`. -/
inductive Comes (policy : Policy) :
    String → List Value → Except Halt Answer → List Line → Prop where
  | hello (a b : Int64) :
    Comes policy "hello" [.i64 a, .i64 b] (.ok .nothing) [.text "Hello, World!"]
  /-- the code is the low 32 bits of the argument, signed -/
  | exit (n : Int64) (code : Int32) (elapsed : Nat) (h : code.toInt = n.toInt.bmod Int32.size) :
    Comes policy "exit" [.i64 n] (.error (.exited code)) [.report elapsed]
  /-- the code is the low 32 bits of the sum, which wraps around at 64 bits -/
  | addExit (a b : Int64) (code : Int32) (elapsed : Nat)
      (h : code.toInt = ((a.toInt + b.toInt).bmod Int64.size).bmod Int32.size) :
    Comes policy "add_exit" [.i64 a, .i64 b] (.error (.exited code)) [.report elapsed]
  | boolExit : Comes policy "bool_exit" [] (.error (.failed (.kindMismatch ⟨.i64, .bool⟩))) []
  | underflowExit : Comes policy "underflow_exit" [] (.error (.failed .stackUnderflow)) []
  | rejected (h : policy = .reject) :
    Comes policy "unknown_syscall" [] (.error (.failed (.unknownSyscall "DoesNotExist"))) []
  | ignored (h : policy = .ignore) : Comes policy "unknown_syscall" [] (.ok .nothing) []
  /-- the time reported holds the milliseconds waited, none if the argument is negative -/
  | sleepExit (n : Int64) (elapsed : Nat) (h : Number.nanosOfMillis n.toInt.toNat ≤ elapsed) :
    Comes policy "sleep_exit" [.i64 n] (.error (.exited 0)) [.report elapsed]

/-- The names of the programs that exit. -/
def exiting : List String := ["exit", "add_exit", "sleep_exit"]

/-- A program leaves the process if and only if it is one of `exiting`. -/
theorem Comes.exited_iff {policy : Policy} {name : String} {args : List Value}
    {result : Except Halt Answer} {output : List Line} (h : Comes policy name args result output) :
    (∃ code, result = .error (.exited code)) ↔ name ∈ exiting := by
  cases h <;> simp [exiting]

/-! ### Runs -/

/-- Arguments of no kinds are none. -/
theorem eq_of_map_kind_nil {args : List Value} (h : args.map Value.kind = []) : args = [] :=
  List.map_eq_nil_iff.1 h

/-- Arguments of the kinds of one integer are an integer. -/
theorem eq_of_map_kind_i64 {args : List Value} (h : args.map Value.kind = [.i64]) :
    ∃ n, args = [.i64 n] := by
  obtain ⟨v, rfl, hv⟩ := List.map_eq_singleton_iff.1 h
  obtain ⟨n, rfl⟩ := Value.exists_of_kind hv
  exact ⟨n, rfl⟩

/-- Arguments of the kinds of two integers are two integers. -/
theorem eq_of_map_kind_i64_i64 {args : List Value} (h : args.map Value.kind = [.i64, .i64]) :
    ∃ a b, args = [.i64 a, .i64 b] := by
  obtain ⟨v, vs, rfl, hv, hvs⟩ := List.map_eq_cons_iff.1 h
  obtain ⟨a, rfl⟩ := Value.exists_of_kind hv
  obtain ⟨b, rfl⟩ := eq_of_map_kind_i64 hvs
  exact ⟨a, b, rfl⟩

/-- The run of a program on a machine just built with a configuration. -/
def launched (p : Program) (c : Config) (args : List Value) : Run Answer :=
  Code.run Code.noRoutines 0 (p.executed args .skip) [] (Machine.boot c)

/-- A bundled program on arguments of the kinds of its parameters comes to what `Comes` says.
    Neither its check nor any of its reads of an argument fails. -/
theorem launched_comes {p : Program} (hp : p ∈ bundled) (c : Config) {args : List Value}
    (h : args.map Value.kind = p.params) :
    Comes c.unknownSyscall p.name args (p.launched c args).result (p.launched c args).output := by
  simp only [bundled, List.mem_cons, List.not_mem_nil, or_false] at hp
  rcases hp with rfl | rfl | rfl | rfl | rfl | rfl | rfl
  · obtain ⟨a, b, rfl⟩ := eq_of_map_kind_i64_i64 h
    exact .hello a b
  · obtain ⟨n, rfl⟩ := eq_of_map_kind_i64 h
    exact .exit n n.toInt32 0 n.toInt_toInt32
  · obtain ⟨a, b, rfl⟩ := eq_of_map_kind_i64_i64 h
    refine .addExit a b (a + b).toInt32 0 ?_
    rw [Int64.toInt_toInt32, Int64.toInt_add]
  · obtain rfl := eq_of_map_kind_nil h
    exact .boolExit
  · obtain rfl := eq_of_map_kind_nil h
    exact .underflowExit
  · obtain rfl := eq_of_map_kind_nil h
    -- the only program that comes to what the configuration says
    obtain ⟨policy, capacity⟩ := c
    cases policy with
    | reject => exact .rejected rfl
    | ignore => exact .ignored rfl
  · obtain ⟨n, rfl⟩ := eq_of_map_kind_i64 h
    exact .sleepExit n (0 + Number.nanosOfMillis n.toInt.toNat) (Nat.le_add_left _ 0)

/-! ### Names

No two programs have one name, so what is found by a name is the program at hand.
-/

/-- Names tell the bundled programs apart. -/
theorem find?_name {p : Program} (hp : p ∈ bundled) : find? p.name = some p := by
  simp only [bundled, List.mem_cons, List.not_mem_nil, or_false] at hp
  rcases hp with rfl | rfl | rfl | rfl | rfl | rfl | rfl <;> rfl

/-- A name that no bundled program has is not found. -/
theorem find?_eq_none {name : String} (h : ∀ p ∈ bundled, p.name ≠ name) : find? name = none :=
  List.find?_eq_none.2 fun p hp => by simpa using h p hp

end Program

/-! ### Launches -/

/-- Arguments that read for a bundled program make it run, on a stack that is not too large. -/
theorem launch_of_readArguments {p : Program} (hp : p ∈ Program.bundled) {texts : List String}
    {args : List Value} (h : p.readArguments texts = .ok args) {c : Config} (hc : c.fits = true) :
    launch c p.name texts = .ran (p.launched c args) := by
  simp only [launch, Program.find?_name hp, h, hc]
  rfl

/-- The lines that a launch printed. -/
def Launch.output : Launch → List Line
  | .refused _ => []
  | .tooLarge => []
  | .ran r => r.output

/-- The launch came to a run with this result and output. -/
def Launch.CameTo (l : Launch) (result : Except Halt Answer) (output : List Line) : Prop :=
  ∃ r, l = .ran r ∧ r.result = result ∧ r.output = output

/-- A stack fits if its slots, of 16 bytes each, stay below what can be addressed: fewer than
    `2 ^ 59`. -/
theorem Config.fits_iff (c : Config) : c.fits ↔ c.stackCapacity.toNat < 2 ^ 59 := by
  rw [fits, decide_eq_true_iff, UInt64.lt_iff_toNat_lt]
  rfl

/-- **Outcome of a launch.** A name that no bundled program has is refused, then arguments that do
    not read, whatever the configuration, and then a stack with too many slots; nothing is printed.
    What is left runs, and comes to what the program of that name comes to on the arguments read,
    see `Program.Comes`. -/
theorem launch_complete (c : Config) (name : String) (texts : List String) :
    ((∀ p ∈ Program.bundled, p.name ≠ name) →
      launch c name texts = .refused (.unknownProgram name) ∧ (launch c name texts).output = []) ∧
    ∀ p ∈ Program.bundled, p.name = name →
      (∀ e, p.readArguments texts = .error e →
        launch c name texts = .refused e ∧ (launch c name texts).output = []) ∧
      ∀ args, p.readArguments texts = .ok args →
        (2 ^ 59 ≤ c.stackCapacity.toNat →
          launch c name texts = .tooLarge ∧ (launch c name texts).output = []) ∧
        (c.stackCapacity.toNat < 2 ^ 59 → ∃ result output,
          (launch c name texts).CameTo result output ∧
          Program.Comes c.unknownSyscall name args result output ∧
          ((∃ code, result = .error (.exited code)) ↔ name ∈ Program.exiting)) := by
  refine ⟨fun hn => ?_, ?_⟩
  · -- Each refusal is one branch of `launch`, in the order in which these are taken.
    have hl : launch c name texts = .refused (.unknownProgram name) := by
      rw [launch, Program.find?_eq_none hn]
    rw [hl]
    exact ⟨rfl, rfl⟩
  rintro p hp rfl
  have hfind := Program.find?_name hp
  refine ⟨fun e he => ?_, fun args hargs => ⟨fun hc => ?_, fun hc => ?_⟩⟩
  · have hl : launch c p.name texts = .refused e := by
      simp only [launch, hfind, he]
    rw [hl]
    exact ⟨rfl, rfl⟩
  · have hfits : c.fits = false := by
      rw [Bool.eq_false_iff, ne_eq, c.fits_iff]
      omega
    have hl : launch c p.name texts = .tooLarge := by
      simp only [launch, hfind, hargs, hfits]
      rfl
    rw [hl]
    exact ⟨rfl, rfl⟩
  · have hl : launch c p.name texts = .ran (p.launched c args) :=
      launch_of_readArguments hp hargs (c.fits_iff.2 hc)
    -- What is read has the kinds of the parameters, so the program `Comes` to an end.
    have hcomes := Program.launched_comes hp c (Program.map_kind_of_readArguments hargs)
    exact ⟨_, _, ⟨_, hl, rfl, rfl⟩, hcomes, hcomes.exited_iff⟩

/-- The largest integer and one make a sum whose low 32 bits are zero. An unknown program is told
    apart from everything else, even from a stack that is too large. -/
theorem launch_largest_sum :
    (∃ result output, (launch {} "add_exit" ["9223372036854775807", "+1"]).CameTo result output ∧
      result = .error (.exited 0) ∧ output.length = 1) ∧
    launch { stackCapacity := 0x800000000000000 } "sum" ["+"] =
      .refused (.unknownProgram "sum") := by
  refine ⟨?_, ((launch_complete _ "sum" ["+"]).1 (by decide)).1⟩
  have hargs : Program.addExit.readArguments ["9223372036854775807", "+1"]
      = .ok [.i64 0x7fffffffffffffff, .i64 1] := by
    rfl
  obtain ⟨result, output, hrun, hcomes, -⟩ :=
    (((launch_complete {} "add_exit" ["9223372036854775807", "+1"]).2 Program.addExit
      (by simp [Program.bundled]) rfl).2 _ hargs).2 (by decide)
  generalize hn : "add_exit" = name at hcomes
  -- `Comes` leaves the code of `add_exit` as the only case: it is the sum's low half.
  cases hcomes with
  | addExit a b code elapsed h =>
    obtain rfl : code = 0 := Int32.toInt_inj.1 h
    exact ⟨_, _, hrun, rfl, rfl⟩
  | _ => simp at hn

end StackMachine
