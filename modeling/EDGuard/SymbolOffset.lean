import EDGuard.Tool
import EDGuard.Lib.AddressMap

/-!
# The file offset of a symbol (`pkg/tool/offset.go`)

* `GetOffsetBySymbol` — the first function symbol of the name, among the symbols and then the
  dynamic symbols, decides; its value is translated by the first executable segment that holds it,
  and returned as it is when no segment does.
* `segmentLoop_eq` — **the inner loop looks the value up** in the map of the executable segments,
  as long as no segment wraps.
* `offset_translated_iff` — **when the number is the offset of such a symbol**.

`os.Open`, `elf.NewFile` and the two symbol lists of the file are parameters.
-/

set_option autoImplicit false

namespace EDGuard

/-! ## `debug/elf` -/

/-- `elf.Symbol`. -/
structure Symbol where
  name : GoString
  info : UInt8
  /-- the section it is defined in -/
  sectionIndex : Int
  value : UInt64

/-- `elf.ProgHeader`. -/
structure ProgHeader where
  type : UInt32
  flags : UInt32
  off : UInt64
  vaddr : UInt64
  memsz : UInt64

def STT_FUNC : UInt8 := 2

def SHN_UNDEF : Int := 0

def PT_LOAD : UInt32 := 1

def PF_X : UInt32 := 1

def ST_TYPE (info : UInt8) : UInt8 := info &&& 0xF

inductive SymbolsError where
  /-- `elf.ErrNoSymbols` -/
  | errNoSymbols
  | other (err : GoString)

/-- `elf.File`, by what its methods return. -/
structure ElfFile where
  symbols : Except SymbolsError (List Symbol)
  dynamicSymbols : Except SymbolsError (List Symbol)
  progs : List ProgHeader

/-! ## `offset.go` -/

inductive OffsetError where
  /-- `open file '%s': %w` -/
  | openFile (binPath err : GoString)
  /-- `parse ELF file: %w` -/
  | parseFile (err : GoString)
  /-- the error of `Symbols` or of `DynamicSymbols` -/
  | symbols (err : GoString)
  /-- `%s for %s not found` -/
  | notFound (symbol binPath : GoString)

/-- A file without a symbol table has no symbols. -/
def listed : Except SymbolsError (List Symbol) → Except GoString (List Symbol)
  | .ok syms => .ok syms
  | .error .errNoSymbols => .ok []
  | .error (.other err) => .error err

/-- The loop through the segments, for a symbol with this value. -/
def segmentLoop (value : UInt64) : List ProgHeader → UInt64 → UInt64
  | [], off => off
  | prog :: progs, off =>
    if prog.type ≠ PT_LOAD ∨ prog.flags &&& PF_X = 0 then segmentLoop value progs off
    else if prog.vaddr ≤ value ∧ value < prog.vaddr + prog.memsz then
      value - prog.vaddr + prog.off
    else segmentLoop value progs off

/-- The loop through the symbols. -/
def symbolLoop (progs : List ProgHeader) (symbol : GoString) : List Symbol → Option UInt64
  | [] => none
  | s :: syms =>
    if s.name = symbol then
      if ST_TYPE s.info ≠ STT_FUNC then symbolLoop progs symbol syms
      else some (segmentLoop s.value progs s.value)
    else symbolLoop progs symbol syms

def GetOffsetBySymbol {φ : Type} (Open : GoString → Except GoString φ)
    (NewFile : φ → Except GoString ElfFile) (binPath symbol : GoString) :
    Except OffsetError UInt64 :=
  match Open binPath with
  | .error err => .error (.openFile binPath err)
  | .ok f =>
    match NewFile f with
    | .error err => .error (.parseFile err)
    | .ok se =>
      match listed se.symbols with
      | .error err => .error (.symbols err)
      | .ok syms =>
        match listed se.dynamicSymbols with
        | .error err => .error (.symbols err)
        | .ok dynsyms =>
          match symbolLoop se.progs symbol (syms ++ dynsyms) with
          | some off => .ok off
          | none => .error (.notFound symbol binPath)

/-! ## The segments as an address map -/

/-- An executable `PT_LOAD` segment. -/
def ProgHeader.Executable (p : ProgHeader) : Prop := p.type = PT_LOAD ∧ p.flags &&& PF_X ≠ 0

instance (p : ProgHeader) : Decidable p.Executable := inferInstanceAs (Decidable (_ ∧ _))

/-- From addresses to file offsets. -/
def ProgHeader.segment (p : ProgHeader) : Segment :=
  ⟨p.vaddr.toNat, p.memsz.toNat, p.off.toNat⟩

/-- The executable segments of a file. -/
def executables (progs : List ProgHeader) : AddressMap :=
  (progs.filter fun p => decide p.Executable).map ProgHeader.segment

/-- The executable segments neither overlap nor wrap. -/
structure WellFormed (progs : List ProgHeader) : Prop where
  disjoint : (executables progs).Disjoint
  vaddr : ∀ p ∈ progs, p.Executable → p.vaddr.toNat + p.memsz.toNat < 2 ^ 64
  off : ∀ p ∈ progs, p.Executable → p.off.toNat + p.memsz.toNat < 2 ^ 64

variable {progs : List ProgHeader} {syms : List Symbol} {symbol : GoString}

/-- The comparison of the loop, on the integers. -/
theorem ProgHeader.holds_iff {p : ProgHeader} {v : UInt64}
    (hp : p.vaddr.toNat + p.memsz.toNat < 2 ^ 64) :
    (p.vaddr ≤ v ∧ v < p.vaddr + p.memsz) ↔ p.segment.Holds v.toNat := by
  have hend : (p.vaddr + p.memsz).toNat = p.vaddr.toNat + p.memsz.toNat := by
    rw [UInt64.toNat_add]
    exact Nat.mod_eq_of_lt hp
  rw [UInt64.le_iff_toNat_le, UInt64.lt_iff_toNat_lt, hend]
  exact Iff.rfl

/-- The subtraction and the addition of the loop, on the integers. -/
theorem ProgHeader.toNat_place {p : ProgHeader} {v : UInt64}
    (hp : p.off.toNat + p.memsz.toNat < 2 ^ 64) (hv : p.segment.Holds v.toNat) :
    (v - p.vaddr + p.off).toNat = p.segment.place v.toNat := by
  obtain ⟨hle, hlt⟩ := hv
  have hsub : (v - p.vaddr).toNat = v.toNat - p.vaddr.toNat :=
    UInt64.toNat_sub_of_le _ _ (UInt64.le_iff_toNat_le.mpr hle)
  have hbound : v.toNat - p.vaddr.toNat + p.off.toNat < 2 ^ 64 := by
    have hlt' : v.toNat < p.vaddr.toNat + p.memsz.toNat := hlt
    omega
  rw [UInt64.toNat_add, hsub]
  exact Nat.mod_eq_of_lt hbound

/-- **The inner loop looks the value up**, with a fallback. -/
theorem segmentLoop_eq {v : UInt64} {off : UInt64}
    (hvaddr : ∀ p ∈ progs, p.Executable → p.vaddr.toNat + p.memsz.toNat < 2 ^ 64)
    (hoff : ∀ p ∈ progs, p.Executable → p.off.toNat + p.memsz.toNat < 2 ^ 64) :
    (segmentLoop v progs off).toNat =
      ((executables progs).lookup v.toNat).getD off.toNat := by
  induction progs with
  | nil => rfl
  | cons p progs ih =>
    have hrest := ih (fun q hq => hvaddr q (List.mem_cons_of_mem p hq))
      (fun q hq => hoff q (List.mem_cons_of_mem p hq))
    unfold segmentLoop
    by_cases hx : p.Executable
    · have hskip : ¬ (p.type ≠ PT_LOAD ∨ p.flags &&& PF_X = 0) := by
        rintro (ht | hf)
        · exact ht hx.1
        · exact hx.2 hf
      have hmap : executables (p :: progs) = p.segment :: executables progs := by
        simp [executables, hx]
      rw [if_neg hskip, hmap]
      unfold AddressMap.lookup
      by_cases hv : p.segment.Holds v.toNat
      · rw [if_pos ((p.holds_iff (hvaddr p List.mem_cons_self hx)).mpr hv),
          p.toNat_place (hoff p List.mem_cons_self hx) hv,
          List.find?_cons_of_pos (by simpa using hv)]
        rfl
      · rw [if_neg fun h => hv ((p.holds_iff (hvaddr p List.mem_cons_self hx)).mp h),
          List.find?_cons_of_neg (by simpa using hv)]
        exact hrest
    · have hskip : p.type ≠ PT_LOAD ∨ p.flags &&& PF_X = 0 := by
        by_contra hno
        obtain ⟨ht, hf⟩ := not_or.mp hno
        exact hx ⟨not_not.mp ht, hf⟩
      have hmap : executables (p :: progs) = executables progs := by
        simp [executables, hx]
      rw [if_pos hskip, hmap]
      exact hrest

/-! ## The symbols -/

/-- A function symbol of the name. -/
def Symbol.IsFunction (symbol : GoString) (s : Symbol) : Prop :=
  s.name = symbol ∧ ST_TYPE s.info = STT_FUNC

instance (symbol : GoString) (s : Symbol) : Decidable (s.IsFunction symbol) :=
  inferInstanceAs (Decidable (_ ∧ _))

def Symbol.Undefined (s : Symbol) : Prop := s.sectionIndex = SHN_UNDEF

/-- The symbol lies at the file offset `w`. -/
def Symbol.At (progs : List ProgHeader) (s : Symbol) (w : Nat) : Prop :=
  (executables progs).Maps s.value.toNat w

/-- The symbol lies in an executable segment. -/
def Symbol.Lies (progs : List ProgHeader) (s : Symbol) : Prop :=
  (executables progs).Mapped s.value.toNat

/-- The first function symbol of the name. -/
def firstFunction (syms : List Symbol) (symbol : GoString) : Option Symbol :=
  syms.find? fun s => decide (s.IsFunction symbol)

/-- **The outer loop stops at the first function symbol.** -/
theorem symbolLoop_eq : symbolLoop progs symbol syms =
    (firstFunction syms symbol).map fun s => segmentLoop s.value progs s.value := by
  unfold firstFunction
  induction syms with
  | nil => rfl
  | cons s syms ih =>
    unfold symbolLoop
    rw [ih]
    by_cases hname : s.name = symbol
    · by_cases htype : ST_TYPE s.info = STT_FUNC
      · simp [Symbol.IsFunction, hname, htype]
      · simp [Symbol.IsFunction, hname, htype]
    · simp [Symbol.IsFunction, hname]

/-- The number that the code takes for the offset of the symbol. -/
theorem toNat_segmentLoop_iff (hwf : WellFormed progs) {s : Symbol} {w : Nat} :
    (segmentLoop s.value progs s.value).toNat = w ↔
      s.At progs w ∨ ¬ s.Lies progs ∧ w = s.value.toNat := by
  rw [segmentLoop_eq hwf.vaddr hwf.off]
  unfold Symbol.At Symbol.Lies
  rw [← AddressMap.lookup_eq_some_iff hwf.disjoint, ← AddressMap.lookup_eq_none_iff]
  cases (executables progs).lookup s.value.toNat with
  | none =>
    constructor
    · rintro rfl
      exact Or.inr ⟨rfl, rfl⟩
    · rintro (hw | ⟨_, rfl⟩)
      · cases hw
      · rfl
  | some w' =>
    constructor
    · rintro rfl
      exact Or.inl rfl
    · rintro (hw | ⟨hno, _⟩)
      · exact Option.some.inj hw
      · cases hno

/-! ## The translation -/

/-- What is promised of the result `res` for the name. -/
structure Translates (progs : List ProgHeader) (syms : List Symbol) (symbol : GoString)
    (res : Except OffsetError UInt64) : Prop where
  /-- a returned number is the offset of a function symbol of the name -/
  sound : ∀ off, res = .ok off →
    ∃ s ∈ syms, s.IsFunction symbol ∧ s.At progs off.toNat
  /-- a function symbol of the name that lies in a segment is enough for success -/
  complete : (∃ s ∈ syms, s.IsFunction symbol ∧ s.Lies progs) → ∃ off, res = .ok off ∧
    ∃ s ∈ syms, s.IsFunction symbol ∧ s.At progs off.toNat
  /-- no undefined symbol stands in for a defined one -/
  defined : (∃ s ∈ syms, s.IsFunction symbol ∧ s.Lies progs ∧ ¬ s.Undefined) → ∀ off,
    res = .ok off → ∃ s ∈ syms, s.IsFunction symbol ∧ s.At progs off.toNat ∧ ¬ s.Undefined

/-- A symbol to translate: a function symbol of the name that lies in a segment, and a defined one
unless all of these are undefined. -/
structure Wanted (progs : List ProgHeader) (syms : List Symbol) (symbol : GoString)
    (s : Symbol) : Prop where
  mem : s ∈ syms
  function : s.IsFunction symbol
  lies : s.Lies progs
  undefined : s.Undefined → ∀ t ∈ syms, t.IsFunction symbol → t.Lies progs → t.Undefined

/-- The offset of `s`, or its value if it lies in no segment, is by coincidence the offset
of `t`. -/
def Coincides (progs : List ProgHeader) (s t : Symbol) : Prop :=
  ∃ w, t.At progs w ∧ (s.At progs w ∨ ¬ s.Lies progs ∧ w = s.value.toNat)

theorem Wanted.coincides {s : Symbol} (h : Wanted progs syms symbol s) : Coincides progs s s := by
  obtain ⟨w, hw⟩ := h.lies
  exact ⟨w, hw, Or.inl hw⟩

/-- A number at which a wanted symbol lies. -/
theorem exists_wanted {off : UInt64} {res : Except OffsetError UInt64}
    (h : Translates progs syms symbol res) (hres : res = .ok off) :
    ∃ t, Wanted progs syms symbol t ∧ t.At progs off.toNat := by
  by_cases hd : ∃ s ∈ syms, s.IsFunction symbol ∧ s.Lies progs ∧ ¬ s.Undefined
  · obtain ⟨t, ht, hf, hat, hdef⟩ := h.defined hd off hres
    exact ⟨t, ⟨ht, hf, ⟨_, hat⟩, fun hu => absurd hu hdef⟩, hat⟩
  · obtain ⟨t, ht, hf, hat⟩ := h.sound off hres
    refine ⟨t, ⟨ht, hf, ⟨_, hat⟩, fun _ u hu huf hul => ?_⟩, hat⟩
    by_contra hdef
    exact hd ⟨u, hu, huf, hul, hdef⟩

theorem translates_of_wanted {off : UInt64} {t : Symbol} (ht : Wanted progs syms symbol t)
    (hat : t.At progs off.toNat) : Translates progs syms symbol (.ok off) := by
  refine ⟨?_, ?_, ?_⟩
  · rintro _ ⟨⟩
    exact ⟨t, ht.mem, ht.function, hat⟩
  · intro _
    exact ⟨off, rfl, t, ht.mem, ht.function, hat⟩
  · rintro ⟨s, hs, hf, hl, hdef⟩ _ ⟨⟩
    exact ⟨t, ht.mem, ht.function, hat, fun hu => hdef (ht.undefined hu s hs hf hl)⟩

theorem translates_of_none {err : OffsetError} (h : firstFunction syms symbol = none) :
    Translates progs syms symbol (.error err) := by
  have hno : ∀ s ∈ syms, ¬ s.IsFunction symbol := by
    simpa [firstFunction, List.find?_eq_none] using h
  refine ⟨?_, ?_, ?_⟩
  · intro off hoff
    cases hoff
  · rintro ⟨s, hs, hf, _⟩
    exact absurd hf (hno s hs)
  · intro _ off hoff
    cases hoff

theorem GetOffsetBySymbol_eq {φ : Type} {Open : GoString → Except GoString φ}
    {NewFile : φ → Except GoString ElfFile} {binPath : GoString} {f : φ} {se : ElfFile}
    {dynsyms : List Symbol} (hopen : Open binPath = .ok f) (hparse : NewFile f = .ok se)
    (hsyms : listed se.symbols = .ok syms) (hdyn : listed se.dynamicSymbols = .ok dynsyms) :
    GetOffsetBySymbol Open NewFile binPath symbol =
      match firstFunction (syms ++ dynsyms) symbol with
      | some s => .ok (segmentLoop s.value se.progs s.value)
      | none => .error (.notFound symbol binPath) := by
  unfold GetOffsetBySymbol
  simp only [hopen, hparse, hsyms, hdyn, symbolLoop_eq]
  cases firstFunction (syms ++ dynsyms) symbol <;> rfl

/-- **The number is the offset of the symbol** exactly if the first function symbol of the name is
one to translate, or yields the number of such a symbol by coincidence. -/
theorem offset_translated_iff {φ : Type} {Open : GoString → Except GoString φ}
    {NewFile : φ → Except GoString ElfFile} {binPath : GoString} {f : φ} {se : ElfFile}
    {dynsyms : List Symbol} (hopen : Open binPath = .ok f) (hparse : NewFile f = .ok se)
    (hsyms : listed se.symbols = .ok syms) (hdyn : listed se.dynamicSymbols = .ok dynsyms)
    (hwf : WellFormed se.progs) :
    Translates se.progs (syms ++ dynsyms) symbol
        (GetOffsetBySymbol Open NewFile binPath symbol) ↔
      ∀ s, firstFunction (syms ++ dynsyms) symbol = some s →
        Wanted se.progs (syms ++ dynsyms) symbol s ∨
          ∃ t, Wanted se.progs (syms ++ dynsyms) symbol t ∧ Coincides se.progs s t := by
  rw [GetOffsetBySymbol_eq hopen hparse hsyms hdyn]
  cases hfirst : firstFunction (syms ++ dynsyms) symbol with
  | none =>
    refine iff_of_true (translates_of_none hfirst) ?_
    intro s hs
    cases hs
  | some s =>
    constructor
    · rintro h _ ⟨⟩
      obtain ⟨t, ht, hat⟩ := exists_wanted h rfl
      exact Or.inr ⟨t, ht, _, hat, (toNat_segmentLoop_iff hwf).mp rfl⟩
    · intro h
      obtain ⟨t, ht, w, hat, hw⟩ : ∃ t, Wanted se.progs (syms ++ dynsyms) symbol t ∧
          Coincides se.progs s t := by
        rcases h s rfl with hs | ht
        · exact ⟨s, hs, hs.coincides⟩
        · exact ht
      have hnum := (toNat_segmentLoop_iff hwf).mpr hw
      apply translates_of_wanted ht
      rw [hnum]
      exact hat

/-! ## Two executables -/

def dispatchName : GoString := lit ['d', 'i', 's', 'p', 'a', 't', 'c', 'h']

/-- Two executable segments behind a read-only one. -/
def splitSegments : List ProgHeader :=
  [⟨PT_LOAD, 4, 0, 0x400000, 0x1000⟩, ⟨PT_LOAD, 5, 0x1000, 0x401000, 0x2000⟩,
    ⟨PT_LOAD, 5, 0x4000, 0x405000, 0x1000⟩]

theorem wellFormed_splitSegments : WellFormed splitSegments := by
  refine ⟨List.pairwise_pair.mpr fun v => ?_, by decide, by decide⟩
  rintro ⟨⟨_, hlt⟩, hle, _⟩
  exact absurd (hle.trans_lt hlt) (by decide)

/-- Another function in the first executable segment, and a variable of the name. -/
def splitSymbols : List Symbol :=
  [⟨lit ['m', 'a', 'i', 'n'], 0x12, 14, 0x401100⟩, ⟨dispatchName, 0x11, 25, 0x600000⟩]

/-- The function of the name, in the second executable segment. -/
def splitDynamic : List Symbol := [⟨dispatchName, 0x12, 16, 0x405678⟩]

def splitBinary : ElfFile := ⟨.ok splitSymbols, .ok splitDynamic, splitSegments⟩

theorem offset_translated_iff_split :
    Translates splitSegments (splitSymbols ++ splitDynamic) dispatchName
      (GetOffsetBySymbol (fun _ => .ok ()) (fun _ => .ok splitBinary) [] dispatchName) ∧
    GetOffsetBySymbol (fun _ => .ok ()) (fun _ => .ok splitBinary) [] dispatchName =
      .ok 0x4678 := by
  refine ⟨(@offset_translated_iff splitSymbols dispatchName Unit (fun _ => .ok ())
    (fun _ => .ok splitBinary) [] () splitBinary splitDynamic rfl rfl rfl rfl
    wellFormed_splitSegments).mpr ?_, rfl⟩
  rintro s ⟨⟩
  refine Or.inl ⟨by simp [splitDynamic], ⟨rfl, by decide⟩, AddressMap.mapped_iff.mpr ?_, ?_⟩
  · refine ⟨⟨0x405000, 0x1000, 0x4000⟩, List.mem_map.mpr ⟨⟨PT_LOAD, 5, 0x4000, 0x405000, 0x1000⟩,
      List.mem_filter.mpr ⟨?_, by decide⟩, rfl⟩, by decide⟩
    exact List.mem_of_getElem? (i := 2) rfl
  · intro hu
    cases hu

/-- One read-only and one executable segment. -/
def twoSegments : List ProgHeader :=
  [⟨PT_LOAD, 4, 0, 0x400000, 0x1000⟩, ⟨PT_LOAD, 5, 0x1000, 0x401000, 0x2000⟩]

theorem wellFormed_twoSegments : WellFormed twoSegments :=
  ⟨List.pairwise_singleton _ _, by decide, by decide⟩

/-- The function in section 14. -/
def dispatchSymbol : Symbol := ⟨dispatchName, 0x12, 14, 0x401234⟩

/-- A function of the name is imported from a shared library. -/
def importedSymbol : Symbol := ⟨dispatchName, 0x12, SHN_UNDEF, 0⟩

def binary (syms : List Symbol) : ElfFile := ⟨.error .errNoSymbols, .ok syms, twoSegments⟩

def offsetIn (syms : List Symbol) : Except OffsetError UInt64 :=
  GetOffsetBySymbol (fun _ => .ok ()) (fun _ => .ok (binary syms)) [] dispatchName

/-- An imported function is given the offset 0, also where the file defines a function of that
name. -/
theorem imported_translated : WellFormed twoSegments ∧
    ¬ Translates twoSegments [importedSymbol] dispatchName (offsetIn [importedSymbol]) ∧
    ¬ Translates twoSegments [importedSymbol, dispatchSymbol] dispatchName
      (offsetIn [importedSymbol, dispatchSymbol]) := by
  have hzero : ∀ s ∈ [importedSymbol, dispatchSymbol], ¬ s.At twoSegments 0 := by
    unfold Symbol.At AddressMap.Maps
    decide
  refine ⟨wellFormed_twoSegments, fun h => ?_, fun h => ?_⟩
  · obtain ⟨s, hs, _, hat⟩ := h.sound 0 rfl
    obtain rfl := List.mem_singleton.mp hs
    exact hzero _ List.mem_cons_self hat
  · obtain ⟨s, hs, _, hat⟩ := h.sound 0 rfl
    exact hzero s hs hat

end EDGuard
