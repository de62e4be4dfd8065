import Mathlib.Data.List.DropRight
import EDGuard.Tool
import EDGuard.Lib.DecimalText

/-!
# The child of a process (`pkg/tool/sys.go`)

* `Sscanf` — `fmt.Sscanf(s, "%d", &pid)` on ASCII text.
* `parsePID`, `GetChildPid` — the first pid in the list of children, which is compared with `"0"`
  as a whole, once its newlines are trimmed, and otherwise scanned from the front.
* `childrenFile` — the list as the kernel writes it: a space follows every pid.
* `GetChildPid_childrenFile` — **what comes out of such a list**: its first pid, be it 0 or not.
* `child_pid_iff` — **when that is the promised answer**.

`os.ReadFile` is a parameter.
-/

set_option autoImplicit false

namespace EDGuard

open DecimalText

/-! ## `fmt` and `strings` -/

def isSpace (b : UInt8) : Bool := decide (b ∈ ([9, 11, 12, 13, 32] : List UInt8))

/-- An optional sign: whether it is a minus, and what follows. -/
def sign : GoString → Bool × GoString
  | [] => (false, [])
  | b :: s => if b = 45 then (true, s) else if b = 43 then (false, s) else (false, b :: s)

/-- `none` is `n != 1 || err != nil`: no digit where one has to be, or a number that is not an
`int64`.  A newline is not a space here. -/
def Sscanf (s : GoString) : Option Int :=
  let (negative, s) := sign (s.dropWhile isSpace)
  let tok := s.takeWhile isDigit
  if tok = [] then none
  else
    let i : Int := if negative then -(value tok : Int) else value tok
    if -2 ^ 63 ≤ i ∧ i < 2 ^ 63 then some i else none

/-- `%d`. -/
def decimal (i : Int) : GoString :=
  if i < 0 then 45 :: digits i.natAbs else digits i.natAbs

/-- `strings.Trim`, for a single byte. -/
def Trim (s : GoString) (cut : UInt8) : GoString :=
  (s.dropWhile fun b => decide (b = cut)).rdropWhile fun b => decide (b = cut)

/-! ## `sys.go` -/

inductive ParseError where
  /-- `no child process found` -/
  | noChild
  /-- `invalid format: %s` -/
  | invalidFormat (spec : GoString)

inductive ChildPidError where
  /-- the error of `os.ReadFile` -/
  | readFile (err : GoString)
  /-- `can't parse %s: %v` -/
  | parse (path : GoString) (err : ParseError)

def parsePID (spec : GoString) : Except ParseError Int :=
  if Trim spec 10 = lit ['0'] then .error .noChild
  else
    match Sscanf spec with
    | none => .error (.invalidFormat spec)
    | some pid => .ok pid

/-- `/proc/%d/task/%d/children`. -/
def childrenPath (pid : Int) : GoString :=
  lit ['/', 'p', 'r', 'o', 'c', '/'] ++ decimal pid ++ lit ['/', 't', 'a', 's', 'k', '/'] ++
    decimal pid ++ lit ['/', 'c', 'h', 'i', 'l', 'd', 'r', 'e', 'n']

def GetChildPid (ReadFile : GoString → Except GoString GoString) (pid : Int) :
    Except ChildPidError Int :=
  match ReadFile (childrenPath pid) with
  | .error err => .error (.readFile err)
  | .ok spec =>
    if spec.length = 0 then .ok pid
    else
      match parsePID spec with
      | .error err => .error (.parse (childrenPath pid) err)
      | .ok n => .ok n

theorem Trim_of_notMem {s : GoString} {cut : UInt8} (h : cut ∉ s) : Trim s cut = s := by
  have hno : ∀ b ∈ s, ¬ decide (b = cut) = true := by
    intro b hb hcut
    exact h (of_decide_eq_true hcut ▸ hb)
  have hdrop : (s.dropWhile fun b => decide (b = cut)) = s :=
    List.dropWhile_eq_self_iff.mpr fun hl => hno _ (List.getElem_mem hl)
  unfold Trim
  rw [hdrop]
  exact List.rdropWhile_eq_self_iff.mpr fun hl => hno _ (List.getLast_mem hl)

/-- What begins with a digit is scanned from its first byte on. -/
theorem sign_dropWhile_digit {b : UInt8} (hb : isDigit b = true) (s : GoString) :
    sign ((b :: s).dropWhile isSpace) = (false, b :: s) := by
  have hrange : 48 ≤ b.toNat ∧ b.toNat ≤ 57 := of_decide_eq_true hb
  have hne : ∀ c : UInt8, c.toNat < 48 → b ≠ c := by
    rintro c hc rfl
    omega
  have hspace : isSpace b = false := by
    simp [isSpace, hne]
  rw [List.dropWhile_cons_of_neg (by simp [hspace])]
  rw [sign, if_neg (hne 45 (by decide)), if_neg (hne 43 (by decide))]

/-- **A number is scanned up to the byte behind it.** -/
theorem Sscanf_digits (p : Nat) {b : UInt8} (hb : isDigit b = false) (rest : GoString) :
    Sscanf (digits p ++ b :: rest) = if p < 2 ^ 63 then some (p : Int) else none := by
  obtain ⟨d, ds, hcons, hd⟩ := exists_digits p
  have hsign : sign ((digits p ++ b :: rest).dropWhile isSpace) =
      (false, digits p ++ b :: rest) := by
    rw [hcons]
    exact sign_dropWhile_digit hd _
  unfold Sscanf
  simp only [hsign, takeWhile_digits_append hb, value_digits, if_neg (digits_ne_nil p)]
  by_cases hp : p < 2 ^ 63
  · rw [if_pos hp]
    have hbound : -2 ^ 63 ≤ (p : Int) ∧ (p : Int) < 2 ^ 63 := by omega
    exact if_pos hbound
  · rw [if_neg hp]
    apply if_neg
    rintro ⟨_, hlt⟩
    simp only [Bool.false_eq_true, if_false] at hlt
    omega

/-! ## The list of children -/

/-- The list as the kernel writes it. -/
def childrenFile (ps : List Nat) : GoString := ps.flatMap fun p => digits p ++ [32]

theorem childrenFile_cons (p : Nat) (ps : List Nat) :
    childrenFile (p :: ps) = digits p ++ 32 :: childrenFile ps := by
  simp [childrenFile]

theorem mem_childrenFile {ps : List Nat} {b : UInt8} (hb : b ∈ childrenFile ps) :
    isDigit b = true ∨ b = 32 := by
  obtain ⟨p, _, hp⟩ := List.mem_flatMap.mp hb
  rcases List.mem_append.mp hp with hd | hs
  · exact Or.inl (isDigit_of_mem_digits hd)
  · exact Or.inr (List.mem_singleton.mp hs)

/-- The comparison with `"0"` fails on every list of the kernel: no newline is trimmed from it, and
a space remains. -/
theorem Trim_childrenFile (p : Nat) (ps : List Nat) :
    Trim (childrenFile (p :: ps)) 10 ≠ lit ['0'] := by
  have hnl : (10 : UInt8) ∉ childrenFile (p :: ps) := by
    intro hmem
    rcases mem_childrenFile hmem with hd | hs
    · exact absurd hd (by decide)
    · exact absurd hs (by decide)
  rw [Trim_of_notMem hnl, childrenFile_cons]
  intro heq
  have hspace : (32 : UInt8) ∈ lit ['0'] := heq ▸ List.mem_append_right _ List.mem_cons_self
  exact absurd hspace (by decide)

theorem parsePID_childrenFile (p : Nat) (ps : List Nat) :
    parsePID (childrenFile (p :: ps)) =
      if p < 2 ^ 63 then .ok (p : Int) else .error (.invalidFormat (childrenFile (p :: ps))) := by
  have hscan : Sscanf (childrenFile (p :: ps)) = if p < 2 ^ 63 then some (p : Int) else none := by
    rw [childrenFile_cons]
    exact Sscanf_digits p (by decide) _
  unfold parsePID
  rw [if_neg (Trim_childrenFile p ps), hscan]
  by_cases hp : p < 2 ^ 63
  · rw [if_pos hp, if_pos hp]
  · rw [if_neg hp, if_neg hp]

variable {ReadFile : GoString → Except GoString GoString} {pid : Int} {ps : List Nat}

/-- The first pid of the list, or the process itself. -/
def firstPid (pid : Int) : List Nat → Except ChildPidError Int
  | [] => .ok pid
  | p :: ps =>
    if p < 2 ^ 63 then .ok p
    else .error (.parse (childrenPath pid) (.invalidFormat (childrenFile (p :: ps))))

/-- **The first pid of the list is returned**, be it 0 or not. -/
theorem GetChildPid_childrenFile (h : ReadFile (childrenPath pid) = .ok (childrenFile ps)) :
    GetChildPid ReadFile pid = firstPid pid ps := by
  unfold GetChildPid
  rw [h]
  cases ps with
  | nil => rfl
  | cons p rest =>
    have hlen : (childrenFile (p :: rest)).length ≠ 0 := by
      rw [childrenFile_cons]
      simp
    simp only [if_neg hlen, parsePID_childrenFile]
    by_cases hp : p < 2 ^ 63
    · simp only [firstPid, if_pos hp]
    · simp only [firstPid, if_neg hp]

/-- What is promised of the result `res` for the process `pid` with the children `ps`. -/
structure IsChildPid (pid : Int) (ps : List Nat) (res : Except ChildPidError Int) : Prop where
  /-- a process without children stands for itself -/
  empty : ps = [] → res = .ok pid
  first : ∀ p rest, ps = p :: rest → 0 < p → res = .ok (p : Int)
  /-- a child outside the pid namespace of the reader -/
  hidden : ∀ rest, ps = 0 :: rest → ∃ err, res = .error err
  nonzero : pid ≠ 0 → res ≠ .ok 0

theorem isChildPid_firstPid_iff :
    IsChildPid pid ps (firstPid pid ps) ↔ ∀ p ∈ ps.head?, 0 < p ∧ p < 2 ^ 63 := by
  cases ps with
  | nil =>
    refine iff_of_true ⟨fun _ => rfl, ?_, ?_, ?_⟩ ?_
    · rintro p rest ⟨⟩
    · rintro rest ⟨⟩
    · rintro hpid ⟨⟩
      exact hpid rfl
    · rintro p ⟨⟩
  | cons p rest =>
    rw [firstPid]
    constructor
    · rintro hright _ ⟨⟩
      by_cases hp : p < 2 ^ 63
      · refine ⟨Nat.pos_of_ne_zero ?_, hp⟩
        rintro rfl
        obtain ⟨err, herr⟩ := hright.hidden rest rfl
        cases herr
      · have hpos : 0 < p := by omega
        have hok := hright.first p rest rfl hpos
        rw [if_neg hp] at hok
        cases hok
    · intro hhead
      obtain ⟨hpos, hp⟩ := hhead p rfl
      rw [if_pos hp]
      refine ⟨?_, ?_, ?_, ?_⟩
      · rintro ⟨⟩
      · rintro _ _ ⟨⟩ _
        rfl
      · rintro _ ⟨⟩
        cases hpos
      · intro _ h0
        have hzero : (p : Int) = 0 := Except.ok.inj h0
        omega

/-- **The child is found** exactly if there is none, or the first pid of the list is positive and
fits an `int`. -/
theorem child_pid_iff (h : ReadFile (childrenPath pid) = .ok (childrenFile ps)) :
    IsChildPid pid ps (GetChildPid ReadFile pid) ↔ ∀ p ∈ ps.head?, 0 < p ∧ p < 2 ^ 63 := by
  rw [GetChildPid_childrenFile h]
  exact isChildPid_firstPid_iff

/-! ## A list that begins with a hidden child -/

/-- Every process has these children. -/
def readChildren (ps : List Nat) (_ : GoString) : Except GoString GoString := .ok (childrenFile ps)

theorem child_pid_iff_two :
    (∀ p ∈ [12, 34].head?, 0 < p ∧ p < 2 ^ 63) ∧
      IsChildPid 7 [12, 34] (GetChildPid (readChildren [12, 34]) 7) := by
  have hhead : ∀ p ∈ [12, 34].head?, 0 < p ∧ p < 2 ^ 63 := by
    rintro p ⟨⟩
    decide
  exact ⟨hhead, (@child_pid_iff (readChildren [12, 34]) 7 [12, 34] rfl).mpr hhead⟩

/-- The only child is hidden: the list reads `"0 "`. -/
theorem hidden_child_found : childrenFile [0] = lit ['0', ' '] ∧
    GetChildPid (readChildren [0]) 7 = .ok 0 ∧
    ¬ IsChildPid 7 [0] (GetChildPid (readChildren [0]) 7) := by
  have hok : GetChildPid (readChildren [0]) 7 = .ok 0 := by
    rw [@GetChildPid_childrenFile (readChildren [0]) 7 [0] rfl]
    rfl
  refine ⟨rfl, hok, fun h => h.nonzero (by decide) hok⟩

end EDGuard
