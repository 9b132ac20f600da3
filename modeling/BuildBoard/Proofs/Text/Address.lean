import BuildBoard.Proofs.Text.Percent
import Mathlib.Data.List.TakeWhile

/-!
# Parts of an address

An address is read from its marks alone: a fragment follows its first `#`, a query the first `?`
before that, a scheme ends at the first `:` unless a slash stands before it, and between two slashes
and the next one stands the authority, which names the host. The query of a page is a list of
parameters, with `&` between two of them and `=` behind the name.

Text without marks that is put behind a directory leaves all of these parts where they are. There is
one exception: a base that ends in the two slashes has no host yet, so the first name behind it is
taken for one.

Results:
1. `parse_page`: the parts of a page's address with a query.
2. `parameters?_writeQuery`: the parameters of a query come out as they were put in.
3. `reachedFrom_append`: what is put behind a directory adds neither query nor fragment, and keeps
   scheme and authority.
4. `authority_append_congr`: where the base has no host, the first name alone decides.
-/

namespace BuildBoard

/-! ## Definitions -/

/-- The text before the first of these marks, and what follows the mark if there is one. -/
def cutAt (mark : Char) : List Char → List Char × Option (List Char)
  | [] => ([], none)
  | c :: cs =>
    if c = mark then ([], some cs) else (c :: (cutAt mark cs).1, (cutAt mark cs).2)

/-- The parts of an address. -/
structure Address where
  scheme : Option (List Char)
  /-- The host, with all that may stand beside it. -/
  authority : Option (List Char)
  path : List Char
  query : Option (List Char)
  fragment : Option (List Char)
deriving DecidableEq

namespace Address

/-- What stands before query and fragment. -/
def hierarchy (cs : List Char) : List Char := (cutAt '?' (cutAt '#' cs).1).1

/-- The scheme, and what follows it. -/
def takeScheme (cs : List Char) : Option (List Char) × List Char :=
  match cutAt ':' cs with
  | (name, some rest) => if name = [] ∨ '/' ∈ name then (none, cs) else (some name, rest)
  | (_, none) => (none, cs)

/-- The authority, and the path behind it. -/
def takeAuthority : List Char → Option (List Char) × List Char
  | '/' :: '/' :: rest => (some (rest.takeWhile (· != '/')), rest.dropWhile (· != '/'))
  | path => (none, path)

def parse (cs : List Char) : Address :=
  let scheme := takeScheme (hierarchy cs)
  let authority := takeAuthority scheme.2
  ⟨scheme.1, authority.1, authority.2, (cutAt '?' (cutAt '#' cs).1).2, (cutAt '#' cs).2⟩

/-- A part of a query: a name and a value, both percent-encoded. -/
def parameter? (part : List Char) : Option (String × String) := do
  let name ← Percent.decode? (cutAt '=' part).1
  let value ← Percent.decode? ((cutAt '=' part).2.getD [])
  some (String.ofList name, String.ofList value)

/-- The parameters of a query. -/
def parameters? (query : List Char) : Option (List (String × String)) :=
  (Fields.split '&' query).mapM parameter?

/-- A parameter as it is written: its name stands for itself. -/
def writeParameter (p : String × String) : List Char :=
  p.1.toList ++ '=' :: Percent.encodeChars p.2.toList

/-- The query with these parameters. -/
def writeQuery (parameters : List (String × String)) : String :=
  String.ofList (Fields.join '&' (parameters.map writeParameter))

/-- The address lies where the base does: it has the base's scheme and its host, if the base names
one, and no query or fragment that the base has not. -/
structure ReachedFrom (base a : Address) : Prop where
  scheme : a.scheme = base.scheme
  authority : base.authority ≠ some [] → a.authority = base.authority
  query : a.query.isSome = base.query.isSome
  fragment : a.fragment.isSome = base.fragment.isSome

/-- The text has none of the marks that end a scheme or begin a query or a fragment. -/
def Unmarked (cs : List Char) : Prop := '#' ∉ cs ∧ '?' ∉ cs ∧ ':' ∉ cs

end Address

/-! ## Cutting at a mark -/

section
variable {mark : Char} {cs front behind : List Char}

theorem cutAt_of_notMem (h : mark ∉ cs) : cutAt mark cs = (cs, none) := by
  induction cs with
  | nil => rfl
  | cons c cs ih =>
    obtain ⟨hc, hcs⟩ := not_or.mp (mt List.mem_cons.mpr h)
    rw [cutAt, if_neg (Ne.symm hc), ih hcs]

theorem cutAt_append_mark (h : mark ∉ front) (rest : List Char) :
    cutAt mark (front ++ mark :: rest) = (front, some rest) := by
  induction front with
  | nil => rw [List.nil_append, cutAt, if_pos rfl]
  | cons c front ih =>
    obtain ⟨hc, hfront⟩ := not_or.mp (mt List.mem_cons.mpr h)
    rw [List.cons_append, cutAt, if_neg (Ne.symm hc), ih hfront]

/-- Text behind that has not the mark goes to the part that reaches to the end. -/
theorem cutAt_append (h : mark ∉ behind) :
    cutAt mark (cs ++ behind) =
      match cutAt mark cs with
      | (front, some rest) => (front, some (rest ++ behind))
      | (front, none) => (front ++ behind, none) := by
  by_cases hmem : mark ∈ cs
  · obtain ⟨front, rest, rfl, hfront⟩ := List.eq_append_cons_of_mem hmem
    rw [cutAt_append_mark hfront, List.append_assoc, List.cons_append, cutAt_append_mark hfront]
  · rw [cutAt_of_notMem hmem, cutAt_of_notMem (mt List.mem_append.mp (not_or.mpr ⟨hmem, h⟩))]

theorem isSome_cutAt_append (h : mark ∉ behind) :
    (cutAt mark (cs ++ behind)).2.isSome = (cutAt mark cs).2.isSome := by
  rw [cutAt_append h]
  split <;> simp_all

end

namespace Address

open Fields (split)

/-! ## Queries -/

theorem parse_page {page query : List Char} (hpage : ∀ c ∈ page, c ∉ ['#', '?', ':', '/'])
    (hquery : '#' ∉ query) :
    parse (page ++ '?' :: query) = ⟨none, none, page, some query, none⟩ := by
  have hfree : ∀ c ∈ ['#', '?', ':', '/'], c ∉ page := fun c hc hmem => hpage c hmem hc
  have hhash : cutAt '#' (page ++ '?' :: query) = (page ++ '?' :: query, none) :=
    cutAt_of_notMem fun h => by
      rcases List.mem_append.mp h with h | h
      · exact hfree '#' (by decide) h
      · exact (List.mem_cons.mp h).elim (absurd · (by decide)) hquery
  have hmark : cutAt '?' (page ++ '?' :: query) = (page, some query) :=
    cutAt_append_mark (hfree '?' (by decide)) query
  have hscheme : takeScheme page = (none, page) := by
    rw [takeScheme, cutAt_of_notMem (hfree ':' (by decide))]
  have hauthority : takeAuthority page = (none, page) := by
    cases page with
    | nil => rfl
    | cons c page =>
      have hc : c ≠ '/' := by
        rintro rfl
        exact hpage '/' List.mem_cons_self (by decide)
      unfold takeAuthority
      split
      · next heq => exact absurd (List.cons.inj heq).1 hc
      · rfl
  rw [parse, hierarchy, hhash, hmark, hscheme, hauthority]

variable {parameters : List (String × String)}

theorem parameter?_writeParameter {p : String × String} (hname : Percent.IsPlain p.1) :
    parameter? (writeParameter p) = some p := by
  have hsep : '=' ∉ p.1.toList := fun h => absurd (hname _ h) (by decide)
  have hdecoded : Percent.decode? p.1.toList = some p.1.toList := by
    conv_lhs => rw [← Percent.encodeChars_of_isPlain hname]
    exact Percent.decode?_encodeChars _
  simp [parameter?, writeParameter, cutAt_append_mark hsep, hdecoded, Percent.decode?_encodeChars]

theorem notMem_writeParameter {p : String × String} {c : Char} (hname : Percent.IsPlain p.1)
    (hc : ¬ Percent.IsEncodedChar c) (heq : c ≠ '=') : c ∉ writeParameter p := by
  intro h
  rcases List.mem_append.mp h with h | h
  · exact hc (.inl (hname c h))
  · rcases List.mem_cons.mp h with h | h
    · exact heq h
    · exact Percent.notMem_encodeChars hc _ h

theorem writeQuery_singleton (name value : String) :
    writeQuery [(name, value)] = name ++ "=" ++ Percent.encode value := by
  rw [← String.toList_inj]
  simp only [writeQuery, List.map_cons, List.map_nil, Fields.join, writeParameter, Percent.encode,
    String.toList_ofList, String.toList_append, List.append_assoc]
  rfl

theorem writeQuery_cons (name value : String) (next : String × String) :
    writeQuery ((name, value) :: next :: parameters) =
      name ++ "=" ++ Percent.encode value ++ "&" ++ writeQuery (next :: parameters) := by
  rw [← String.toList_inj]
  simp only [writeQuery, List.map_cons, Fields.join_cons_cons, writeParameter, Percent.encode,
    String.toList_ofList, String.toList_append, List.append_assoc]
  rfl

section
variable (hnames : ∀ p ∈ parameters, Percent.IsPlain p.1)
include hnames

/-- No character of a value is taken for a separator of the query. -/
theorem parameters?_writeQuery (hne : parameters ≠ []) :
    parameters? (writeQuery parameters).toList = some parameters := by
  have hfields : ∀ field ∈ parameters.map writeParameter, '&' ∉ field := by
    intro field hfield
    obtain ⟨p, hp, rfl⟩ := List.mem_map.mp hfield
    exact notMem_writeParameter (hnames p hp) (by decide) (by decide)
  rw [parameters?, writeQuery, String.toList_ofList,
    Fields.split_join (by simpa using hne) hfields, List.mapM_map]
  clear hne hfields
  induction parameters with
  | nil => rfl
  | cons p parameters ih =>
    obtain ⟨hp, hparameters⟩ := List.forall_mem_cons.mp hnames
    rw [List.mapM_cons, Function.comp_apply, parameter?_writeParameter hp, ih hparameters]
    rfl

/-- A query is not ended by what its parameters hold. -/
theorem hash_notMem_writeQuery : '#' ∉ (writeQuery parameters).toList := by
  rw [writeQuery, String.toList_ofList]
  intro h
  rcases Fields.mem_of_mem_join h with heq | ⟨field, hfield, hmem⟩
  · exact absurd heq (by decide)
  · obtain ⟨p, hp, rfl⟩ := List.mem_map.mp hfield
    exact notMem_writeParameter (hnames p hp) (by decide) (by decide) hmem

end

/-! ## What is put behind a directory -/

variable {cs path behind behind' : List Char}

/-- A base that ends in the slashes before a host, without one. -/
def NoHost (cs : List Char) : Prop := '#' ∉ cs ∧ '?' ∉ cs ∧ (takeScheme cs).2 = ['/', '/']

theorem hierarchy_of_notMem (hhash : '#' ∉ cs) (hmark : '?' ∉ cs) : hierarchy cs = cs := by
  rw [hierarchy, cutAt_of_notMem hhash, cutAt_of_notMem hmark]

theorem hierarchy_append_of_mem (h : '#' ∈ cs ∨ '?' ∈ cs) (hbehind : Unmarked behind) :
    hierarchy (cs ++ behind) = hierarchy cs := by
  by_cases hhash : '#' ∈ cs
  · obtain ⟨front, rest, rfl, hfront⟩ := List.eq_append_cons_of_mem hhash
    rw [List.append_assoc, List.cons_append]
    simp only [hierarchy, cutAt_append_mark hfront]
  · obtain ⟨front, rest, rfl, hfront⟩ := List.eq_append_cons_of_mem (h.resolve_left hhash)
    have hboth : '#' ∉ front ++ '?' :: rest ++ behind := fun hmem =>
      (List.mem_append.mp hmem).elim hhash hbehind.1
    rw [hierarchy, hierarchy, cutAt_of_notMem hboth, cutAt_of_notMem hhash, List.append_assoc,
      List.cons_append]
    simp only [cutAt_append_mark hfront]

theorem takeScheme_append (h : ':' ∉ behind) :
    takeScheme (cs ++ behind) = ((takeScheme cs).1, (takeScheme cs).2 ++ behind) := by
  rw [takeScheme, takeScheme, cutAt_append h]
  rcases cutAt ':' cs with ⟨name, _ | rest⟩
  · rfl
  · dsimp only
    split <;> rfl

/-- A scheme does not reach beyond the last slash. -/
theorem getLast?_takeScheme (h : cs.getLast? = some '/') :
    (takeScheme cs).2.getLast? = some '/' := by
  unfold takeScheme
  by_cases hmem : ':' ∈ cs
  · obtain ⟨name, rest, rfl, hname⟩ := List.eq_append_cons_of_mem hmem
    rw [cutAt_append_mark hname]
    dsimp only
    split
    · exact h
    · cases rest with
      | nil => simp at h
      | cons c rest => simpa [List.getLast?_cons_cons] using h
  · rw [cutAt_of_notMem hmem]
    exact h

theorem takeAuthority_append (hpath : path.getLast? = some '/') (hnamed : path ≠ ['/', '/'])
    (hbehind : behind.head? ≠ some '/') :
    (takeAuthority (path ++ behind)).1 = (takeAuthority path).1 := by
  match path with
  | [] => simp at hpath
  | [c] =>
    obtain rfl : c = '/' := by simpa using hpath
    cases behind with
    | nil => rfl
    | cons d behind =>
      have hd : d ≠ '/' := fun heq => hbehind (heq ▸ rfl)
      simp [takeAuthority, hd]
  | c :: d :: rest =>
    by_cases hslashes : c = '/' ∧ d = '/'
    · obtain ⟨rfl, rfl⟩ := hslashes
      have hmem : '/' ∈ rest := by
        cases rest with
        | nil => exact absurd rfl hnamed
        | cons e rest =>
          rw [List.getLast?_cons_cons, List.getLast?_cons_cons] at hpath
          exact List.mem_of_getLast? hpath
      obtain ⟨host, rest, rfl, hhost⟩ := List.eq_append_cons_of_mem hmem
      simp only [takeAuthority, List.cons_append, List.append_assoc,
        Fields.takeWhile_append_sep hhost]
    · simp only [takeAuthority, List.cons_append]
      split <;> simp_all

theorem hierarchy_append_of_notMem (hhash : '#' ∉ cs) (hmark : '?' ∉ cs) (h : Unmarked behind) :
    hierarchy (cs ++ behind) = cs ++ behind :=
  hierarchy_of_notMem (mt List.mem_append.mp (not_or.mpr ⟨hhash, h.1⟩))
    (mt List.mem_append.mp (not_or.mpr ⟨hmark, h.2.1⟩))

theorem scheme_append (cs : List Char) (h : Unmarked behind) :
    (parse (cs ++ behind)).scheme = (parse cs).scheme := by
  simp only [parse]
  by_cases hmarked : '#' ∈ cs ∨ '?' ∈ cs
  · rw [hierarchy_append_of_mem hmarked h]
  · obtain ⟨hhash, hmark⟩ := not_or.mp hmarked
    rw [hierarchy_append_of_notMem hhash hmark h, hierarchy_of_notMem hhash hmark,
      takeScheme_append h.2.2]

theorem query_append (cs : List Char) (h : Unmarked behind) :
    (parse (cs ++ behind)).query.isSome = (parse cs).query.isSome := by
  simp only [parse]
  rw [cutAt_append h.1]
  rcases cutAt '#' cs with ⟨front, _ | rest⟩
  · exact isSome_cutAt_append h.2.1
  · rfl

theorem fragment_append (cs : List Char) (h : Unmarked behind) :
    (parse (cs ++ behind)).fragment.isSome = (parse cs).fragment.isSome :=
  isSome_cutAt_append h.1

/-- A base without a host takes the first name behind it for one. -/
theorem authority_append_of_noHost (hbare : NoHost cs) (h : Unmarked behind) :
    (parse (cs ++ behind)).authority = some (behind.takeWhile (· != '/')) := by
  obtain ⟨hhash, hmark, hslashes⟩ := hbare
  simp only [parse]
  rw [hierarchy_append_of_notMem hhash hmark h, takeScheme_append h.2.2, hslashes]
  rfl

section
variable (hcs : cs.getLast? = some '/')
include hcs

theorem authority_append (hnamed : ¬ NoHost cs) (h : Unmarked behind)
    (hhead : behind.head? ≠ some '/') :
    (parse (cs ++ behind)).authority = (parse cs).authority := by
  simp only [parse]
  by_cases hmarked : '#' ∈ cs ∨ '?' ∈ cs
  · rw [hierarchy_append_of_mem hmarked h]
  · obtain ⟨hhash, hmark⟩ := not_or.mp hmarked
    rw [hierarchy_append_of_notMem hhash hmark h, hierarchy_of_notMem hhash hmark,
      takeScheme_append h.2.2]
    exact takeAuthority_append (getLast?_takeScheme hcs)
      (fun hslashes => hnamed ⟨hhash, hmark, hslashes⟩) hhead

theorem reachedFrom_append (h : Unmarked behind) (hhead : behind.head? ≠ some '/') :
    ReachedFrom (parse cs) (parse (cs ++ behind)) where
  scheme := scheme_append cs h
  authority hhost := by
    refine authority_append hcs (fun hbare => hhost ?_) h hhead
    have hnone : (parse (cs ++ [])).authority = some [] :=
      authority_append_of_noHost hbare (by simp [Unmarked])
    rwa [List.append_nil] at hnone
  query := query_append cs h
  fragment := fragment_append cs h

/-- Of what is put behind, nothing but the first name can tell for the authority. -/
theorem authority_append_congr (h : Unmarked behind) (hhead : behind.head? ≠ some '/')
    (h' : Unmarked behind') (hhead' : behind'.head? ≠ some '/')
    (hfirst : behind.takeWhile (· != '/') = behind'.takeWhile (· != '/')) :
    (parse (cs ++ behind)).authority = (parse (cs ++ behind')).authority := by
  by_cases hbare : NoHost cs
  · rw [authority_append_of_noHost hbare h, authority_append_of_noHost hbare h', hfirst]
  · rw [authority_append hcs hbare h hhead, authority_append hcs hbare h' hhead']

end

end Address

end BuildBoard
