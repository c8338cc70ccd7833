import MinNT.Lib.ByteMemory
import MinNT.NtStatus

namespace MinNT.Wmi

open ByteMemory List

/-- The characters of a string before its null character. -/
abbrev CString := { chars : List UInt8 // 0 ∉ chars }

/-- `WMI_PROP_TYPE`. -/
inductive PropType where
  | string
  | uint32
  | uint64
  | boolean
deriving DecidableEq, Repr

/-- `WMI_PROPERTY`. -/
structure Property where
  name : CString
  type : PropType
  offset : Nat

/-- `WMI_CLASS`; the instances stand in memory from `instances` on. -/
structure WmiClass where
  name : CString
  properties : List Property
  instanceSize : Nat
  instances : Nat
  instanceCount : Nat

/-- `WMI_PROVIDER`, with its classes in the order of their links. -/
structure Provider where
  name : CString
  classes : List WmiClass

/-- `g_Providers` in the order of their links, and the memory of the instances. -/
structure Store where
  providers : List Provider
  memory : ByteMemory

def wmiMaxName : Nat := 128
def wmiMaxInstances : Nat := 256

/-- `cls->Instances + i * cls->InstanceSize`, where the product is a `ULONG`. -/
def WmiClass.instanceAt (cls : WmiClass) (i : Nat) : Nat :=
  cls.instances + i * cls.instanceSize % 2 ^ 32

/-- The loop that compares two names, for at most `count` characters. -/
def sameName : Nat → List UInt8 → List UInt8 → Bool
  | 0, _, _ => true
  | count + 1, stored, name =>
      if stored.headD 0 ≠ name.headD 0 then false
      else if name.headD 0 = 0 then true
      else sameName count stored.tail name.tail

def matchesName (stored : CString) (name : List UInt8) : Bool := sameName wmiMaxName stored.val name

/-- The class that a name stands for: the first one in the order of the providers. -/
def findClass (providers : List Provider) (className : List UInt8) : Option WmiClass :=
  providers.findSome? fun prov => prov.classes.find? fun cls => matchesName cls.name className

def wmiFindProp (cls : WmiClass) (name : List UInt8) : Option Nat :=
  cls.properties.findIdx? fun property => matchesName property.name name

def chSpace : UInt8 := 0x20
def chTab : UInt8 := 0x09
def chQuote : UInt8 := 0x22
def chEquals : UInt8 := 0x3D

/-- `"SELECT"`, `"FROM"`, `"WHERE"` and `"AND"`. -/
def wordSelect : List UInt8 := [0x53, 0x45, 0x4C, 0x45, 0x43, 0x54]
def wordFrom : List UInt8 := [0x46, 0x52, 0x4F, 0x4D]
def wordWhere : List UInt8 := [0x57, 0x48, 0x45, 0x52, 0x45]
def wordAnd : List UInt8 := [0x41, 0x4E, 0x44]

/-- One entry of `Predicates`. -/
structure Predicate where
  propIdx : Nat
  isUint : Bool
  isBool : Bool
  uintValue : Nat
  uint64Value : Nat
  strValue : List UInt8
deriving DecidableEq, Repr

/-- `WMI_QUERY`. `SelProp` is `none` for -1. -/
structure WmiQuery where
  cls : WmiClass
  selProp : Option Nat
  predicates : List Predicate

/-- `while (q[i] == ' ') i++;` -/
def skipSpaces (q : List UInt8) : List UInt8 := q.dropWhile (· = chSpace)

/-- `while (q[i] && q[i] != stop && length < limit) token[length++] = q[i++];` -/
def readToken (stop : UInt8) : Nat → List UInt8 → List UInt8 × List UInt8
  | 0, q => ([], q)
  | _ + 1, [] => ([], [])
  | limit + 1, c :: q =>
      if c = stop then ([], c :: q)
      else
        let rest := readToken stop limit q
        (c :: rest.1, rest.2)

/-- The text behind a keyword and the space that follows it. -/
def afterKeyword (word q : List UInt8) : Option (List UInt8) :=
  if (word ++ [chSpace]).isPrefixOf q then some (q.drop (word.length + 1)) else none

/-- `pval`, in quotes or up to the next space. -/
def readValue (q : List UInt8) : List UInt8 × List UInt8 :=
  if q.headD 0 = chQuote then
    let token := readToken chQuote (wmiMaxName - 1) q.tail
    (token.1, if token.2.headD 0 = chQuote then token.2.tail else token.2)
  else readToken chSpace (wmiMaxName - 1) q

/-- The number in `pval`, in words of so many bits. A character that is no digit starts it over. -/
def readNumber (bits : Nat) (pval : List UInt8) : Nat :=
  pval.foldl (fun v c =>
    if c < 0x30 ∨ c > 0x39 then 0 else (v * 10 + (c.toNat - 0x30)) % 2 ^ bits) 0

/-- `pval[0] == 'T' || pval[0] == 't'`. -/
def SaysTrue (pval : List UInt8) : Prop := pval.headD 0 = 0x54 ∨ pval.headD 0 = 0x74

instance (pval : List UInt8) : Decidable (SaysTrue pval) := inferInstanceAs (Decidable (_ ∨ _))

def makePredicate (propIdx : Nat) (type : PropType) (pval : List UInt8) : Predicate :=
  match type with
  | .uint32 => ⟨propIdx, true, false, readNumber 32 pval, 0, []⟩
  | .uint64 => ⟨propIdx, true, false, 0, readNumber 64 pval, []⟩
  | .boolean => ⟨propIdx, false, true, if SaysTrue pval then 1 else 0, 0, []⟩
  | .string => ⟨propIdx, false, false, 0, 0, pval⟩

/-- The loop over the predicates, with `room` for so many more. -/
def parsePredicates (cls : WmiClass) :
    Nat → List Predicate → List UInt8 → Except NtStatus (List Predicate)
  | _, found, [] => .ok found
  | 0, _, _ :: _ => .error statusInvalidParameter
  | room + 1, found, c :: q =>
      let name := readToken chEquals (wmiMaxName - 1) (c :: q)
      if name.2.headD 0 ≠ chEquals then .error statusInvalidParameter
      else
        let value := readValue name.2.tail
        match wmiFindProp cls name.1 with
        | none => .error statusNotFound
        | some pidx =>
            let type := ((cls.properties[pidx]?).map Property.type).getD .string
            let found := found ++ [makePredicate pidx type value.1]
            match afterKeyword wordAnd (skipSpaces value.2) with
            | none => .ok found
            | some q => parsePredicates cls room found (skipSpaces q)

/-- The optional `WHERE` clause. -/
def parseWhere (cls : WmiClass) (q : List UInt8) : Except NtStatus (List Predicate) :=
  if q = [] then .ok []
  else
    match afterKeyword wordWhere q with
    | none => .error statusInvalidParameter
    | some q => parsePredicates cls 4 [] (skipSpaces q)

def wmiParseQuery (providers : List Provider) (q : List UInt8) : Except NtStatus WmiQuery :=
  match afterKeyword wordSelect (q.dropWhile fun c => c = chSpace ∨ c = chTab) with
  | none => .error statusInvalidParameter
  | some q =>
      let sel := readToken chSpace (wmiMaxName - 1) (skipSpaces q)
      match afterKeyword wordFrom (skipSpaces sel.2) with
      | none => .error statusInvalidParameter
      | some q =>
          let className := readToken chSpace (wmiMaxName - 1) (skipSpaces q)
          match findClass providers className.1 with
          | none => .error statusNotFound
          | some cls =>
              (parseWhere cls (skipSpaces className.2)).map fun predicates =>
                ⟨cls, wmiFindProp cls sel.1, predicates⟩

/-- `WmiCmpString`, from the address of the property on. The bytes of the instance are unsigned and
those of the query signed. -/
def wmiCmpString (memory : ByteMemory) : Nat → List UInt8 → Bool
  | base, [] => memory base = 0
  | base, c :: value =>
      if memory base = 0 then false
      else if memory base ≠ c ∨ c ≥ 0x80 then false
      else wmiCmpString memory (base + 1) value

/-- What one predicate says about one instance. -/
def predicateOk (memory : ByteMemory) (cls : WmiClass) (predicate : Predicate) (inst : Nat) :
    Bool :=
  match cls.properties[predicate.propIdx]? with
  | none => false
  | some property =>
      let base := inst + property.offset
      if predicate.isBool then (memory base ≠ 0) == (predicate.uintValue ≠ 0)
      else if predicate.isUint then
        if property.type = .uint64 then load memory 8 base = predicate.uint64Value
        else load memory 4 base = predicate.uintValue
      else wmiCmpString memory base predicate.strValue

/-- `match[i] = FALSE` for the instances that the predicate does not hold of. -/
def strike (memory : ByteMemory) (cls : WmiClass) (marks : List Bool) (predicate : Predicate) :
    List Bool :=
  marks.mapIdx fun i mark => mark && predicateOk memory cls predicate (cls.instanceAt i)

structure WmiResult where
  count : Nat
  instances : List Nat
  instanceSize : Nat
deriving DecidableEq, Repr

/-- `ExAllocatePool` finds a block, and never one of length 0. -/
def Allocates (poolHas : Nat → Bool) (bytes : Nat) : Prop := bytes ≠ 0 ∧ poolHas bytes = true

instance (poolHas : Nat → Bool) (bytes : Nat) : Decidable (Allocates poolHas bytes) :=
  inferInstanceAs (Decidable (_ ∧ _))

/-- The instances whose mark is still set, in their order. -/
def marked (cls : WmiClass) (marks : List Bool) : List Nat :=
  ((range cls.instanceCount).filter fun i => marks.getD i false).map cls.instanceAt

def wmiQuery (store : Store) (poolHas : Nat → Bool) (query : List UInt8) :
    Except NtStatus WmiResult :=
  match wmiParseQuery store.providers query with
  | .error s => .error s
  | .ok q =>
      if ¬ Allocates poolHas q.cls.instanceCount then .error statusNoMemory
      else
        let marks := q.predicates.foldl (strike store.memory q.cls)
          (replicate q.cls.instanceCount true)
        let found := marked q.cls marks
        if ¬ Allocates poolHas (found.length * 8) then .error statusNoMemory
        else .ok ⟨found.length, found, q.cls.instanceSize⟩

/-- The class with one more instance. -/
def WmiClass.grown (cls : WmiClass) : WmiClass :=
  ⟨cls.name, cls.properties, cls.instanceSize, cls.instances, cls.instanceCount + 1⟩

/-- The first class with the name is replaced. -/
def growFirst (className : List UInt8) : List WmiClass → List WmiClass
  | [] => []
  | cls :: rest =>
      if matchesName cls.name className then cls.grown :: rest
      else cls :: growFirst className rest

def growIn (className : List UInt8) : List Provider → List Provider
  | [] => []
  | prov :: rest =>
      if (prov.classes.find? fun cls => matchesName cls.name className).isSome then
        ⟨prov.name, growFirst className prov.classes⟩ :: rest
      else prov :: growIn className rest

def wmiAddInstance (store : Store) (className data : List UInt8) : NtStatus × Store :=
  match findClass store.providers className with
  | none => (statusNotFound, store)
  | some cls =>
      if wmiMaxInstances ≤ cls.instanceCount then (statusNoMemory, store)
      else if data.length ≠ cls.instanceSize then (statusInvalidParameter, store)
      else (statusSuccess, ⟨growIn className store.providers,
        store.memory.write (cls.instanceAt cls.instanceCount) data⟩)

/-- A value as it is written. -/
inductive ValueText where
  | bare (chars : List UInt8)
  | quoted (chars : List UInt8)

def ValueText.chars : ValueText → List UInt8
  | .bare chars => chars
  | .quoted chars => chars

def ValueText.render : ValueText → List UInt8
  | .bare chars => chars
  | .quoted chars => chQuote :: chars ++ [chQuote]

/-- `p=v`, with the numbers of spaces, less one, before and behind its keyword. -/
structure Clause where
  before : Nat
  behind : Nat
  name : List UInt8
  value : ValueText

def gap (spaces : Nat) : List UInt8 := replicate (spaces + 1) chSpace

def Clause.render (word : List UInt8) (clause : Clause) : List UInt8 :=
  gap clause.before ++ word ++ gap clause.behind ++ clause.name ++ [chEquals] ++ clause.value.render

/-- `SELECT s FROM c [WHERE p1=v1 [AND p2=v2] ...]`, with the numbers of spaces, less one, between
its words, and any number of them around it. -/
structure QueryText where
  lead : Nat
  selGap : Nat
  sel : List UInt8
  fromGap : Nat
  classGap : Nat
  className : List UInt8
  clauses : List Clause
  trail : Nat

def renderClauses : List UInt8 → List Clause → List UInt8
  | _, [] => []
  | word, clause :: rest => clause.render word ++ renderClauses wordAnd rest

def QueryText.render (text : QueryText) : List UInt8 :=
  replicate text.lead chSpace ++ wordSelect ++ gap text.selGap ++ text.sel ++
    gap text.fromGap ++ wordFrom ++ gap text.classGap ++ text.className ++
      renderClauses wordWhere text.clauses ++ replicate text.trail chSpace

/-- A name: some ASCII characters, at most 127 of them, without a space or `=`. -/
structure NameToken (chars : List UInt8) : Prop where
  nonempty : chars ≠ []
  short : chars.length ≤ 127
  ascii : ∀ c ∈ chars, 0 < c ∧ c < 0x80
  clean : ∀ c ∈ chars, c ≠ chSpace ∧ c ≠ chEquals

/-- At most 127 ASCII characters; without quotes they hold no space and begin with no quote, and
between quotes they hold no quote. -/
structure ValueToken (value : ValueText) : Prop where
  short : value.chars.length ≤ 127
  ascii : ∀ c ∈ value.chars, 0 < c ∧ c < 0x80
  clean : match value with
    | .bare chars => (∀ c ∈ chars, c ≠ chSpace) ∧ chars.headD 0 ≠ chQuote
    | .quoted chars => ∀ c ∈ chars, c ≠ chQuote

structure WellFormed (text : QueryText) : Prop where
  sel : NameToken text.sel
  className : NameToken text.className
  few : text.clauses.length ≤ 4
  names : ∀ clause ∈ text.clauses, NameToken clause.name
  values : ∀ clause ∈ text.clauses, ValueToken clause.value

/-- The number that decimal digits stand for. -/
def decimal (chars : List UInt8) : Nat := chars.foldl (fun v c => v * 10 + (c.toNat - 0x30)) 0

def Digits (chars : List UInt8) : Prop := chars ≠ [] ∧ ∀ c ∈ chars, 0x30 ≤ c ∧ c ≤ 0x39

/-- The characters are a value for a property of this type. -/
def Suits (type : PropType) (chars : List UInt8) : Prop :=
  match type with
  | .uint32 => Digits chars ∧ decimal chars < 2 ^ 32
  | .uint64 => Digits chars ∧ decimal chars < 2 ^ 64
  | .boolean => True
  | .string => True

/-- The first class of the name, in the order of the providers. -/
def resolve (providers : List Provider) (className : List UInt8) : Option WmiClass :=
  (providers.flatMap Provider.classes).find? fun cls => cls.name.val = className

/-- The first property of the name. -/
def WmiClass.property (cls : WmiClass) (name : List UInt8) : Option Property :=
  cls.properties.find? fun property => property.name.val = name

/-- What stands at the address is the value, as one of this type. -/
def HoldsAt (memory : ByteMemory) (base : Nat) (chars : List UInt8) : PropType → Prop
  | .string => memory.read base (chars.length + 1) = chars ++ [0]
  | .uint32 => load memory 4 base = decimal chars
  | .uint64 => load memory 8 base = decimal chars
  | .boolean => memory base ≠ 0 ↔ SaysTrue chars

instance (memory : ByteMemory) (base : Nat) (chars : List UInt8) :
    ∀ type, Decidable (HoldsAt memory base chars type)
  | .string => inferInstanceAs (Decidable (_ = _))
  | .uint32 => inferInstanceAs (Decidable (_ = _))
  | .uint64 => inferInstanceAs (Decidable (_ = _))
  | .boolean => inferInstanceAs (Decidable (_ ↔ _))

/-- The clause names a property and has a value for it. -/
def Known (cls : WmiClass) (clause : Clause) : Prop :=
  ∃ property, cls.property clause.name = some property ∧ Suits property.type clause.value.chars

/-- The instance satisfies the clause. -/
def Satisfies (memory : ByteMemory) (cls : WmiClass) (inst : Nat) (clause : Clause) : Prop :=
  ∃ property ∈ cls.property clause.name,
    HoldsAt memory (inst + property.offset) clause.value.chars property.type

instance (memory : ByteMemory) (cls : WmiClass) (inst : Nat) (clause : Clause) :
    Decidable (Satisfies memory cls inst clause) :=
  inferInstanceAs (Decidable (∃ property ∈ cls.property clause.name, _))

/-- The instances that satisfy all clauses, in the order in which they were added. -/
def matching (memory : ByteMemory) (cls : WmiClass) (clauses : List Clause) : List Nat :=
  ((range cls.instanceCount).filter fun i =>
    ∀ clause ∈ clauses, Satisfies memory cls (cls.instanceAt i) clause).map cls.instanceAt

theorem sameName_iff {count : Nat} {stored name : List UInt8} (noNul : 0 ∉ stored)
    (noNul' : 0 ∉ name) (short : name.length < count) :
    sameName count stored name = true ↔ stored = name := by
  induction count generalizing stored name with
  | zero => exact absurd short (Nat.not_lt_zero _)
  | succ count ih =>
    rw [sameName]
    cases stored with
    | nil =>
      cases name with
      | nil => simp
      | cons c name =>
        have nonzero : c ≠ 0 := fun zero => noNul' (zero ▸ mem_cons_self)
        simp [nonzero.symm]
    | cons b stored =>
      have nonzero : b ≠ 0 := fun zero => noNul (zero ▸ mem_cons_self)
      cases name with
      | nil => simp [nonzero]
      | cons c name =>
        by_cases same : b = c
        · subst same
          rw [if_neg (show ¬ (b :: stored).headD 0 ≠ (b :: name).headD 0 from not_not.mpr rfl),
            if_neg (show ¬ (b :: name).headD 0 = 0 from nonzero), tail_cons,
            tail_cons, List.cons.injEq,
            ih (fun member => noNul (mem_cons_of_mem _ member))
              (fun member => noNul' (mem_cons_of_mem _ member))
              (Nat.lt_of_succ_lt_succ short)]
          simp only [true_and]
        · rw [if_pos (show (b :: stored).headD 0 ≠ (c :: name).headD 0 from same)]
          simp [same]

section Names

variable {name : List UInt8}

section Token

variable (token : NameToken name)
include token

theorem NameToken.noNul : 0 ∉ name :=
  fun member => absurd (token.ascii 0 member).1 (by decide)

theorem NameToken.fits : name.length ≤ wmiMaxName - 1 := token.short

theorem matchesName_eq (stored : CString) :
    matchesName stored name = decide (stored.val = name) := by
  rw [Bool.eq_iff_iff, decide_eq_true_eq]
  exact sameName_iff stored.property token.noNul (Nat.lt_succ_of_le token.short)

theorem findClass_eq (providers : List Provider) :
    findClass providers name = resolve providers name := by
  unfold findClass resolve
  rw [find?_flatMap]
  simp only [matchesName_eq token]

theorem wmiFindProp_property (cls : WmiClass) :
    (wmiFindProp cls name).bind (fun pidx => cls.properties[pidx]?) = cls.property name := by
  unfold wmiFindProp WmiClass.property
  simp only [matchesName_eq token]
  exact find?_eq_bind_findIdx?_getElem?.symm

end Token

end Names

/-- The text is at its end or goes on with the character. -/
def EndsAt (stop : UInt8) (rest : List UInt8) : Prop := rest = [] ∨ rest.headD 0 = stop

theorem readToken_append {stop : UInt8} {limit : Nat} {token rest : List UInt8}
    (short : token.length ≤ limit) (clean : ∀ c ∈ token, c ≠ stop) (ends : EndsAt stop rest) :
    readToken stop limit (token ++ rest) = (token, rest) := by
  induction token generalizing limit with
  | nil =>
    rw [nil_append]
    cases limit with
    | zero => rfl
    | succ limit =>
      cases rest with
      | nil => rfl
      | cons c rest =>
        have here : c = stop := ends.resolve_left (cons_ne_nil _ _)
        rw [readToken, if_pos here]
  | cons c token ih =>
    cases limit with
    | zero => exact absurd short (Nat.not_succ_le_zero _)
    | succ limit =>
      rw [cons_append, readToken, if_neg (clean c mem_cons_self),
        ih (Nat.le_of_succ_le_succ short) fun d member => clean d (mem_cons_of_mem _ member)]

theorem skipSpaces_replicate (count : Nat) (rest : List UInt8) :
    skipSpaces (replicate count chSpace ++ rest) = skipSpaces rest := by
  unfold skipSpaces
  exact dropWhile_append_of_pos (by simp)

theorem skipSpaces_token {token rest : List UInt8} (nonempty : token ≠ [])
    (clean : ∀ c ∈ token, c ≠ chSpace) : skipSpaces (token ++ rest) = token ++ rest := by
  cases token with
  | nil => exact absurd rfl nonempty
  | cons c token =>
    unfold skipSpaces
    rw [cons_append, dropWhile_cons_of_neg]
    simpa using clean c mem_cons_self

theorem skipSpaces_gap {token rest : List UInt8} (spaces : Nat) (nonempty : token ≠ [])
    (clean : ∀ c ∈ token, c ≠ chSpace) :
    skipSpaces (gap spaces ++ (token ++ rest)) = token ++ rest := by
  rw [gap, skipSpaces_replicate, skipSpaces_token nonempty clean]

theorem afterKeyword_gap (word rest : List UInt8) (spaces : Nat) :
    afterKeyword word (word ++ (gap spaces ++ rest)) =
      some (replicate spaces chSpace ++ rest) := by
  have shape : word ++ (gap spaces ++ rest) =
      word ++ [chSpace] ++ (replicate spaces chSpace ++ rest) := by
    rw [gap, replicate_succ]
    simp
  rw [shape, afterKeyword, if_pos ( isPrefixOf_iff_prefix.mpr (prefix_append _ _))]
  congr 1
  exact drop_left' (by rw [length_append, length_singleton])

theorem endsAt_gap (spaces : Nat) (rest : List UInt8) : EndsAt chSpace (gap spaces ++ rest) :=
  .inr (by rw [gap, replicate_succ]; rfl)

theorem endsAt_spaces (count : Nat) : EndsAt chSpace (replicate count chSpace) := by
  cases count with
  | zero => exact .inl rfl
  | succ count => exact .inr rfl

theorem readValue_render {value : ValueText} (token : ValueToken value) {rest : List UInt8}
    (ends : EndsAt chSpace rest) : readValue (value.render ++ rest) = (value.chars, rest) := by
  obtain ⟨short, _, clean⟩ := token
  cases value with
  | bare chars =>
    dsimp only [ValueText.chars] at short clean ⊢
    show readValue (chars ++ rest) = _
    have noQuote : (chars ++ rest).headD 0 ≠ chQuote := by
      cases chars with
      | nil =>
        rcases ends with rfl | space
        · decide
        · rw [nil_append, space]
          decide
      | cons c chars => exact clean.2
    rw [readValue, if_neg noQuote]
    exact readToken_append short clean.1 ends
  | quoted chars =>
    dsimp only [ValueText.chars] at short clean ⊢
    have token := @readToken_append chQuote (wmiMaxName - 1) chars (chQuote :: rest) short clean
      (.inr rfl)
    have shape : (ValueText.quoted chars).render ++ rest =
        chQuote :: (chars ++ (chQuote :: rest)) := by simp [ValueText.render]
    have first : (chQuote :: (chars ++ (chQuote :: rest))).headD 0 = chQuote := rfl
    rw [shape, readValue, if_pos first, tail_cons, token]
    rfl

/-! The keywords are not empty, and hold no spaces. -/

theorem wordFrom_token : wordFrom ≠ [] ∧ ∀ c ∈ wordFrom, c ≠ chSpace := by
  simp [wordFrom, chSpace]

theorem wordWhere_token : wordWhere ≠ [] ∧ ∀ c ∈ wordWhere, c ≠ chSpace := by
  simp [wordWhere, chSpace]

theorem wordAnd_token : wordAnd ≠ [] ∧ ∀ c ∈ wordAnd, c ≠ chSpace := by
  simp [wordAnd, chSpace]

/-- What the parser makes of a clause. -/
def clausePredicate (cls : WmiClass) (clause : Clause) : Predicate :=
  makePredicate ((wmiFindProp cls clause.name).getD 0)
    (((cls.property clause.name).map Property.type).getD .string) clause.value.chars

section Parse

variable {cls : WmiClass}

theorem endsAt_clauses (word : List UInt8) (clauses : List Clause) (trail : Nat) :
    EndsAt chSpace (renderClauses word clauses ++ replicate trail chSpace) := by
  cases clauses with
  | nil => exact endsAt_spaces trail
  | cons clause rest =>
    simp only [renderClauses, Clause.render, append_assoc]
    exact endsAt_gap _ _

/-- One clause is read, and the keyword behind it. -/
theorem parsePredicates_clause {clause : Clause} (name : NameToken clause.name)
    (value : ValueToken clause.value) (known : Known cls clause) (room : Nat)
    (found : List Predicate) {rest : List UInt8} (ends : EndsAt chSpace rest) :
    parsePredicates cls (room + 1) found
        (clause.name ++ ([chEquals] ++ (clause.value.render ++ rest))) =
      match afterKeyword wordAnd (skipSpaces rest) with
      | none => .ok (found ++ [clausePredicate cls clause])
      | some q => parsePredicates cls room (found ++ [clausePredicate cls clause])
        (skipSpaces q) := by
  obtain ⟨property, here, _⟩ := known
  obtain ⟨pidx, index, place⟩ : ∃ pidx, wmiFindProp cls clause.name = some pidx ∧
      cls.properties[pidx]? = some property := by
    have both := wmiFindProp_property name cls
    rw [here] at both
    exact Option.bind_eq_some_iff.mp both
  have read := @readToken_append chEquals (wmiMaxName - 1) clause.name
    ([chEquals] ++ (clause.value.render ++ rest)) name.fits
    (fun c member => (name.clean c member).2) (.inr rfl)
  obtain ⟨c, q, text⟩ := exists_cons_of_ne_nil
    (append_ne_nil_of_left_ne_nil name.nonempty ([chEquals] ++ (clause.value.render ++ rest)))
  have predicate : makePredicate pidx property.type clause.value.chars =
      clausePredicate cls clause := by
    rw [clausePredicate, index, here]
    rfl
  have equals : ¬ ([chEquals] ++ (clause.value.render ++ rest)).headD 0 ≠ chEquals :=
    not_not.mpr rfl
  rw [text, parsePredicates, ← text]
  dsimp only
  rw [read]
  dsimp only
  rw [if_neg equals, singleton_append, tail_cons, readValue_render value ends, index]
  dsimp only
  rw [place, Option.map_some, Option.getD_some, predicate]

/-- A rendered list of clauses is read back. -/
theorem parsePredicates_render (clauses : List Clause)
    (names : ∀ clause ∈ clauses, NameToken clause.name)
    (values : ∀ clause ∈ clauses, ValueToken clause.value)
    (known : ∀ clause ∈ clauses, Known cls clause) (trail : Nat) {clause : Clause}
    (name : NameToken clause.name) (value : ValueToken clause.value) (here : Known cls clause)
    {room : Nat} (few : clauses.length ≤ room) (found : List Predicate) :
    parsePredicates cls (room + 1) found (clause.name ++ ([chEquals] ++ (clause.value.render ++
        (renderClauses wordAnd clauses ++ replicate trail chSpace)))) =
      .ok (found ++ (clause :: clauses).map (clausePredicate cls)) := by
  induction clauses generalizing clause room found with
  | nil =>
    rw [parsePredicates_clause name value here room found (endsAt_clauses wordAnd [] trail)]
    have nothing : skipSpaces (renderClauses wordAnd [] ++ replicate trail chSpace) = [] := by
      rw [renderClauses, nil_append, ← append_nil (replicate trail chSpace), skipSpaces_replicate]
      rfl
    rw [nothing]
    rfl
  | cons next rest ih =>
    cases room with
    | zero => exact absurd few (Nat.not_succ_le_zero _)
    | succ room =>
      have nextName := names next mem_cons_self
      rw [parsePredicates_clause name value here (room + 1) found
        (endsAt_clauses wordAnd (next :: rest) trail)]
      have shape : renderClauses wordAnd (next :: rest) ++ replicate trail chSpace =
          gap next.before ++ (wordAnd ++ (gap next.behind ++ (next.name ++ ([chEquals] ++
            (next.value.render ++ (renderClauses wordAnd rest ++
              replicate trail chSpace)))))) := by
        simp only [renderClauses, Clause.render, append_assoc]
      rw [shape, skipSpaces_gap _ wordAnd_token.1 wordAnd_token.2, afterKeyword_gap]
      dsimp only
      rw [skipSpaces_replicate, skipSpaces_token nextName.nonempty
        (fun c member => (nextName.clean c member).1)]
      rw [ih (fun clause member => names clause (mem_cons_of_mem _ member))
        (fun clause member => values clause (mem_cons_of_mem _ member))
        (fun clause member => known clause (mem_cons_of_mem _ member)) nextName
        (values next mem_cons_self) (known next mem_cons_self)
        (Nat.le_of_succ_le_succ few)]
      simp only [map_cons, append_assoc, singleton_append]

/-- So is the rendered `WHERE` part. -/
theorem parseWhere_render (clauses : List Clause)
    (names : ∀ clause ∈ clauses, NameToken clause.name)
    (values : ∀ clause ∈ clauses, ValueToken clause.value)
    (known : ∀ clause ∈ clauses, Known cls clause) (trail : Nat) (few : clauses.length ≤ 4) :
    parseWhere cls (skipSpaces (renderClauses wordWhere clauses ++ replicate trail chSpace)) =
      .ok (clauses.map (clausePredicate cls)) := by
  cases clauses with
  | nil =>
    rw [renderClauses, nil_append, ← append_nil (replicate trail chSpace), skipSpaces_replicate]
    rfl
  | cons clause rest =>
    have name := names clause mem_cons_self
    have shape : renderClauses wordWhere (clause :: rest) ++ replicate trail chSpace =
        gap clause.before ++ (wordWhere ++ (gap clause.behind ++ (clause.name ++ ([chEquals] ++
          (clause.value.render ++ (renderClauses wordAnd rest ++
            replicate trail chSpace)))))) := by
      simp only [renderClauses, Clause.render, append_assoc]
    rw [shape, skipSpaces_gap _ wordWhere_token.1 wordWhere_token.2, parseWhere,
      if_neg (by simp [wordWhere]),
      afterKeyword_gap]
    dsimp only
    rw [skipSpaces_replicate,
      skipSpaces_token name.nonempty (fun c member => (name.clean c member).1),
      parsePredicates_render rest (fun clause member => names clause (mem_cons_of_mem _ member))
        (fun clause member => values clause (mem_cons_of_mem _ member))
        (fun clause member => known clause (mem_cons_of_mem _ member)) trail name
        (values clause mem_cons_self) (known clause mem_cons_self)
        (Nat.le_of_succ_le_succ few)]
    rfl

/-- Every rendered query is parsed back. -/
theorem wmiParseQuery_render {providers : List Provider} {text : QueryText}
    (wellFormed : WellFormed text) (resolves : resolve providers text.className = some cls)
    (known : ∀ clause ∈ text.clauses, Known cls clause) :
    wmiParseQuery providers text.render =
      .ok ⟨cls, wmiFindProp cls text.sel, text.clauses.map (clausePredicate cls)⟩ := by
  obtain ⟨sel, className, few, names, values⟩ := wellFormed
  have shape : text.render = replicate text.lead chSpace ++ (wordSelect ++ (gap text.selGap ++
      (text.sel ++ (gap text.fromGap ++ (wordFrom ++ (gap text.classGap ++ (text.className ++
        (renderClauses wordWhere text.clauses ++ replicate text.trail chSpace)))))))) := by
    simp only [QueryText.render, append_assoc]
  have lead : ∀ rest, (replicate text.lead chSpace ++ (wordSelect ++ rest)).dropWhile
      (fun c => decide (c = chSpace ∨ c = chTab)) = wordSelect ++ rest := by
    intro rest
    rw [dropWhile_append_of_pos (by simp)]
    rfl
  unfold wmiParseQuery
  rw [shape, lead, afterKeyword_gap]
  dsimp only
  rw [skipSpaces_replicate, skipSpaces_token sel.nonempty (fun c member => (sel.clean c member).1),
    readToken_append sel.fits (fun c member => (sel.clean c member).1) (endsAt_gap _ _)]
  dsimp only
  rw [skipSpaces_gap _ wordFrom_token.1 wordFrom_token.2, afterKeyword_gap]
  dsimp only
  rw [skipSpaces_replicate,
    skipSpaces_token className.nonempty (fun c member => (className.clean c member).1),
    readToken_append className.fits (fun c member => (className.clean c member).1)
      (endsAt_clauses _ _ _)]
  dsimp only
  rw [findClass_eq className, resolves]
  dsimp only
  rw [parseWhere_render text.clauses names values known text.trail few]
  rfl

end Parse

theorem le_decimal_foldl (chars : List UInt8) (start : Nat) :
    start ≤ chars.foldl (fun v c => v * 10 + (c.toNat - 0x30)) start := by
  induction chars generalizing start with
  | nil => exact Nat.le_refl _
  | cons c chars ih =>
    rw [foldl_cons]
    exact Nat.le_trans (by omega) (ih _)

theorem readNumber_foldl {bits : Nat} (chars : List UInt8)
    (digits : ∀ c ∈ chars, 0x30 ≤ c ∧ c ≤ 0x39) {start : Nat}
    (fits : chars.foldl (fun v c => v * 10 + (c.toNat - 0x30)) start < 2 ^ bits) :
    chars.foldl (fun v c =>
        if c < 0x30 ∨ c > 0x39 then 0 else (v * 10 + (c.toNat - 0x30)) % 2 ^ bits)
      start = chars.foldl (fun v c => v * 10 + (c.toNat - 0x30)) start := by
  induction chars generalizing start with
  | nil => rfl
  | cons c chars ih =>
    rw [foldl_cons] at fits
    obtain ⟨low, high⟩ := digits c mem_cons_self
    have digit : ¬ (c < 0x30 ∨ c > 0x39) := by
      rw [not_or, UInt8.not_lt, UInt8.not_lt]
      exact ⟨low, high⟩
    have small := Nat.lt_of_le_of_lt (le_decimal_foldl chars _) fits
    rw [foldl_cons, foldl_cons, if_neg digit, Nat.mod_eq_of_lt small]
    exact ih (fun d member => digits d (mem_cons_of_mem _ member)) fits

theorem readNumber_eq {bits : Nat} {chars : List UInt8} (digits : Digits chars)
    (fits : decimal chars < 2 ^ bits) : readNumber bits chars = decimal chars :=
  readNumber_foldl chars digits.2 fits

theorem read_succ (memory : ByteMemory) (base count : Nat) :
    memory.read base (count + 1) = memory base :: memory.read (base + 1) count := by
  rw [Nat.add_comm count 1, read_append]
  rfl

theorem wmiCmpString_iff {memory : ByteMemory} {value : List UInt8} {base : Nat}
    (ascii : ∀ c ∈ value, 0 < c ∧ c < 0x80) :
    wmiCmpString memory base value = true ↔
      memory.read base (value.length + 1) = value ++ [0] := by
  induction value generalizing base with
  | nil => simp [wmiCmpString, read_succ]
  | cons c value ih =>
    obtain ⟨nonzero, low⟩ := ascii c mem_cons_self
    have notHigh : ¬ c ≥ 0x80 := UInt8.not_le.mpr low
    have notZero : c ≠ 0 := fun zero => absurd (zero ▸ nonzero) (by decide)
    rw [wmiCmpString, read_succ, cons_append, List.cons.injEq, length_cons,
      ← ih (fun d member => ascii d (mem_cons_of_mem _ member))]
    by_cases same : memory base = c
    · rw [same, if_neg notZero, if_neg (by simp [notHigh])]
      simp
    · by_cases ended : memory base = 0
      · rw [if_pos ended]
        simp [same]
      · rw [if_neg ended, if_pos (Or.inl same)]
        simp [same]

section Satisfies

variable {memory : ByteMemory} {cls : WmiClass}

theorem predicateOk_iff {clause : Clause} (name : NameToken clause.name)
    (value : ValueToken clause.value) (known : Known cls clause) (inst : Nat) :
    predicateOk memory cls (clausePredicate cls clause) inst = true ↔
      Satisfies memory cls inst clause := by
  obtain ⟨property, here, suits⟩ := known
  obtain ⟨pidx, index, place⟩ : ∃ pidx, wmiFindProp cls clause.name = some pidx ∧
      cls.properties[pidx]? = some property := by
    have both := wmiFindProp_property name cls
    rw [here] at both
    exact Option.bind_eq_some_iff.mp both
  have satisfied : Satisfies memory cls inst clause ↔
      HoldsAt memory (inst + property.offset) clause.value.chars property.type := by
    rw [Satisfies, here]
    simp only [Option.mem_some_iff, exists_eq_left']
  have chosen : (clausePredicate cls clause).propIdx = pidx := by
    rw [clausePredicate, index, Option.getD_some]
    unfold makePredicate
    split <;> rfl
  rw [satisfied, predicateOk, chosen, place]
  dsimp only
  rw [clausePredicate, here, Option.map_some, Option.getD_some]
  cases kind : property.type with
  | string =>
    simp only [makePredicate, Bool.false_eq_true, ↓reduceIte]
    exact wmiCmpString_iff value.ascii
  | uint32 | uint64 =>
    rw [kind] at suits
    simp [makePredicate, HoldsAt, readNumber_eq suits.1 suits.2]
  | boolean =>
    by_cases isTrue : SaysTrue clause.value.chars
    · simp [makePredicate, HoldsAt, isTrue]
    · simp [makePredicate, HoldsAt, isTrue]

theorem foldl_strike (predicates : List Predicate) (before : Nat → Bool) (count : Nat) :
    predicates.foldl (strike memory cls) ((range count).map before) =
      (range count).map fun i =>
        before i && predicates.all fun p => predicateOk memory cls p (cls.instanceAt i) := by
  induction predicates generalizing before with
  | nil => simp
  | cons predicate rest ih =>
    have one : strike memory cls ((range count).map before) predicate =
        (range count).map fun i =>
          before i && predicateOk memory cls predicate (cls.instanceAt i) := by
      apply ext_getElem
      · simp [strike]
      · intro i inside _
        simp [strike]
    rw [foldl_cons, one, ih]
    simp only [all_cons, Bool.and_assoc]

/-- Filtering clause by clause leaves the matching instances. -/
theorem marked_eq_matching {clauses : List Clause}
    (names : ∀ clause ∈ clauses, NameToken clause.name)
    (values : ∀ clause ∈ clauses, ValueToken clause.value)
    (known : ∀ clause ∈ clauses, Known cls clause) :
    marked cls ((clauses.map (clausePredicate cls)).foldl (strike memory cls)
        (replicate cls.instanceCount true)) = matching memory cls clauses := by
  have start : replicate cls.instanceCount true =
      (range cls.instanceCount).map fun _ => true := by simp
  rw [start, foldl_strike]
  unfold marked matching
  congr 1
  apply filter_congr
  intro i member
  have inside := mem_range.mp member
  have place : ((range cls.instanceCount).map fun i =>
      true && (clauses.map (clausePredicate cls)).all fun p =>
        predicateOk memory cls p (cls.instanceAt i)).getD i false =
      (clauses.map (clausePredicate cls)).all fun p =>
        predicateOk memory cls p (cls.instanceAt i) := by
    simp [getD_eq_getElem?_getD, inside]
  rw [place, Bool.eq_iff_iff, decide_eq_true_eq, all_eq_true]
  constructor
  · intro all clause listed
    exact (predicateOk_iff (names clause listed) (values clause listed) (known clause listed) _).mp
      (all _ (mem_map_of_mem listed))
  · intro all predicate listed
    obtain ⟨clause, here, rfl⟩ := List.mem_map.mp listed
    exact (predicateOk_iff (names clause here) (values clause here) (known clause here) _).mpr
      (all clause here)

end Satisfies

/-- The class that the name stands for holds these instances, in this order. -/
structure Added (store : Store) (className : List UInt8) (cls : WmiClass)
    (added : List (List UInt8)) : Prop where
  resolves : resolve store.providers className = some cls
  count : cls.instanceCount = added.length
  bytes : ∀ i data, added[i]? = some data →
    store.memory.read (cls.instanceAt i) cls.instanceSize = data

section Added

variable {className : List UInt8} {cls : WmiClass}

theorem find?_growFirst {classes : List WmiClass}
    (first : (classes.find? fun cls => matchesName cls.name className) = some cls) :
    ((growFirst className classes).find? fun cls => matchesName cls.name className) =
      some cls.grown := by
  induction classes with
  | nil => cases first
  | cons head rest ih =>
    rw [growFirst]
    rw [find?_cons] at first
    cases here : matchesName head.name className with
    | true =>
      rw [here] at first
      obtain rfl := Option.some.inj first
      rw [if_pos rfl, find?_cons, show matchesName head.grown.name className = true from here]
    | false =>
      rw [here] at first
      rw [if_neg Bool.false_ne_true, find?_cons, here]
      exact ih first

theorem findClass_growIn {providers : List Provider}
    (first : findClass providers className = some cls) :
    findClass (growIn className providers) className = some cls.grown := by
  induction providers with
  | nil => cases first
  | cons prov rest ih =>
    unfold findClass at first ih ⊢
    rw [findSome?_cons] at first
    rw [growIn]
    cases found : prov.classes.find? fun cls => matchesName cls.name className with
    | none =>
      rw [found] at first
      rw [if_neg (by simp), findSome?_cons, found]
      exact ih first
    | some other =>
      rw [found] at first
      obtain rfl := Option.some.inj first
      rw [if_pos Option.isSome_some, findSome?_cons, find?_growFirst found]

/-- An instance that is added comes last. -/
theorem Added.add {store : Store} {added : List (List UInt8)} {data : List UInt8}
    (token : NameToken className) (before : Added store className cls added)
    (small : cls.instanceSize * wmiMaxInstances < 2 ^ 32)
    (success : (wmiAddInstance store className data).1 = statusSuccess) :
    Added (wmiAddInstance store className data).2 className cls.grown (added ++ [data]) := by
  have first : findClass store.providers className = some cls := by
    rw [findClass_eq token]
    exact before.resolves
  unfold wmiAddInstance at success ⊢
  rw [first] at success ⊢
  dsimp only at success ⊢
  by_cases full : wmiMaxInstances ≤ cls.instanceCount
  · rw [if_pos full] at success
    exact absurd (show statusNoMemory = statusSuccess from success) (by decide)
  rw [if_neg full] at success ⊢
  by_cases size : data.length ≠ cls.instanceSize
  · rw [if_pos size] at success
    exact absurd (show statusInvalidParameter = statusSuccess from success) (by decide)
  rw [if_neg size]
  rw [not_not] at size
  have place : ∀ i ≤ cls.instanceCount,
      cls.instanceAt i = cls.instances + i * cls.instanceSize := by
    intro i inside
    have below : i * cls.instanceSize ≤ wmiMaxInstances * cls.instanceSize :=
      Nat.mul_le_mul_right _ (by omega)
    rw [WmiClass.instanceAt, Nat.mod_eq_of_lt (by rw [Nat.mul_comm] at small; omega)]
  constructor
  · rw [← findClass_eq token]
    exact findClass_growIn first
  · rw [length_append, length_singleton, ← before.count]
    rfl
  · intro i other listed
    show (store.memory.write _ _).read (cls.instanceAt i) cls.instanceSize = other
    have inside := (List.getElem?_eq_some_iff.mp listed).1
    rw [length_append, length_singleton, ← before.count] at inside
    by_cases last : i = cls.instanceCount
    · rw [last, before.count, getElem?_concat_length] at listed
      obtain rfl := Option.some.inj listed
      rw [last, ← size]
      exact read_write_same _ _ _
    · rw [getElem?_append_left (by rw [← before.count]; omega)] at listed
      rw [read_write_disjoint]
      · exact before.bytes i other listed
      · left
        have step : (i + 1) * cls.instanceSize ≤ cls.instanceCount * cls.instanceSize :=
          Nat.mul_le_mul_right _ (by omega)
        rw [place i (by omega), place _ (Nat.le_refl _)]
        rw [Nat.succ_mul] at step
        omega

end Added

/-- A query of this form finds exactly the instances that satisfy its clauses. -/
theorem wmiQuery_matches (store : Store) (poolHas : Nat → Bool) (text : QueryText) (cls : WmiClass)
    (wellFormed : WellFormed text) (resolves : resolve store.providers text.className = some cls)
    (some : 0 < cls.instanceCount) (known : ∀ clause ∈ text.clauses, Known cls clause)
    (memory : ∀ bytes, 0 < bytes → poolHas bytes = true)
    (found : matching store.memory cls text.clauses ≠ []) :
    wmiQuery store poolHas text.render =
      .ok ⟨(matching store.memory cls text.clauses).length, matching store.memory cls text.clauses,
        cls.instanceSize⟩ := by
  have count : 0 < (matching store.memory cls text.clauses).length * 8 :=
    Nat.mul_pos (length_pos_of_ne_nil found) (by decide)
  have granted : ∀ bytes, 0 < bytes → ¬ ¬ Allocates poolHas bytes := fun bytes positive =>
    not_not.mpr ⟨Nat.ne_of_gt positive, memory bytes positive⟩
  unfold wmiQuery
  rw [wmiParseQuery_render wellFormed resolves known]
  dsimp only
  rw [if_neg (granted _ some), marked_eq_matching wellFormed.names wellFormed.values known,
    if_neg (granted _ count)]

def numberClass : WmiClass where
  name := ⟨[0x43], by decide⟩
  properties := [⟨⟨[0x4E], by decide⟩, .uint32, 0⟩]
  instanceSize := 4
  instances := 0x1000
  instanceCount := 2

/-- The instances are 5 and 7. -/
def numberStore : Store where
  providers := [⟨⟨[0x50], by decide⟩, [numberClass]⟩]
  memory address := if address = 0x1000 then 5 else if address = 0x1004 then 7 else 0

/-- `SELECT * FROM C WHERE N=7`. -/
def numberQuery : QueryText :=
  ⟨0, 0, [0x2A], 0, 0, [0x43], [⟨0, 0, [0x4E], .bare [0x37]⟩], 0⟩

/-- One instance whose number is the one asked for. -/
theorem wmiQuery_matches_number :
    wmiQuery numberStore (fun _ => true) numberQuery.render = .ok ⟨1, [0x1004], 4⟩ := by
  have clauses : numberQuery.clauses = [⟨0, 0, [0x4E], .bare [0x37]⟩] := rfl
  have token : ∀ c : UInt8, 0 < c ∧ c < 0x80 → c ≠ chSpace ∧ c ≠ chEquals → NameToken [c] := by
    intro c ascii clean
    exact ⟨cons_ne_nil _ _, Nat.le_of_ble_eq_true rfl, by simpa using ascii, by simpa using clean⟩
  have names : NameToken [0x4E] := token _ (by decide) (by decide)
  have values : ValueToken (.bare [0x37]) :=
    ⟨Nat.le_of_ble_eq_true rfl, by simp [ValueText.chars], by simp [chSpace, chQuote]⟩
  have known : Known numberClass ⟨0, 0, [0x4E], .bare [0x37]⟩ :=
    ⟨_, rfl, ⟨cons_ne_nil _ _, by simp [ValueText.chars]⟩, by decide⟩
  have wellFormed : WellFormed numberQuery := by
    refine ⟨token _ (by decide) (by decide), token _ (by decide) (by decide), by decide, ?_, ?_⟩
    · intro clause member
      rw [clauses, mem_singleton] at member
      rw [member]
      exact names
    · intro clause member
      rw [clauses, mem_singleton] at member
      rw [member]
      exact values
  have answer := wmiQuery_matches numberStore (fun _ => true) numberQuery numberClass wellFormed
    rfl (by decide)
    (by
      intro clause member
      rw [clauses, mem_singleton] at member
      rw [member]
      exact known)
    (fun _ _ => rfl) (by decide)
  rw [answer]
  decide

end MinNT.Wmi
