import BuildBoard.Proofs.Text.Address
import BuildBoard.Source

/-!
# The address of a page's documents

Documents are fetched from below a base address. The names on the way come from a request, and each
is percent-encoded, so they can do nothing but name a directory: the address has the base's scheme
and host, and neither query nor fragment of its own. Cut at its slashes and decoded, the path is the
data directory again. So no other data directory has the same address.

Names are not looked at beyond that. A name of dots is a name as any other here, and what a server
makes of it is not part of the address.

Results:
1. `httpUrl_eq`: the address is base, encoded data directory and file name.
2. `takeWhile_belowBase`: the first name behind the base is one that no request has chosen.
3. `fetch_address`: all of it, for every page.
-/

namespace BuildBoard

open Fields (split)

/-! ## Definitions -/

namespace Source

/-- The base with a slash at its end. -/
def directory (base : String) : String :=
  if base.toList.getLast? = some '/' then base else base ++ "/"

/-- The address from which the documents of a page are fetched over HTTP. -/
def addressFor (base root : String) (ctx : PageContext) : String :=
  (Source.new .http base root ctx.dataUrl).describe

/-- The first name behind the base. -/
def firstName : Hosting → String
  | .hosted => "data"
  | .inline => dataFile

/-! ## Base and directory -/

theorem getLast?_directory (base : String) : (directory base).toList.getLast? = some '/' := by
  unfold directory
  split
  · assumption
  · rw [String.toList_append]
    exact List.getLast?_concat

theorem httpUrl_eq (base dataUrl : String) :
    httpUrl base dataUrl = directory base ++ (Percent.encodePath dataUrl ++ dataFile) := by
  rw [httpUrl, directory, Path.endsWithSlash, String.append_assoc]
  simp only [beq_iff_eq]

end Source

/-- A hosted page's data lies below one directory. -/
theorem PageContext.exists_dataUrlOf_hosted (kind : PageKind) (mastername buildname : Option String) :
    ∃ rest, dataUrlOf kind .hosted mastername buildname = "data/" ++ rest := by
  cases kind with
  | build => exact ⟨_, by simp only [dataUrlOf, String.append_assoc]; rfl⟩
  | jail => exact ⟨_, by simp only [dataUrlOf, String.append_assoc]; rfl⟩
  | index => exact ⟨"", rfl⟩

namespace Source

/-! ## Behind the base -/

theorem unmarked_belowBase (dataUrl : String) :
    Address.Unmarked (Percent.encodePath dataUrl ++ dataFile).toList := by
  have hchar : ∀ c ∈ (Percent.encodePath dataUrl ++ dataFile).toList,
      c = '/' ∨ Percent.IsEncodedChar c := by
    intro c hc
    rw [String.toList_append, List.mem_append] at hc
    rcases hc with hc | hc
    · exact Percent.isEncodedChar_of_mem_encodePath hc
    · have hfile : ∀ c ∈ dataFile.toList, c = '/' ∨ Percent.IsEncodedChar c :=
        List.forall_iff_forall_mem.mp (by decide)
      exact hfile c hc
  have hnotMem {c : Char} (hc : ¬ (c = '/' ∨ Percent.IsEncodedChar c)) :
      c ∉ (Percent.encodePath dataUrl ++ dataFile).toList := fun hmem => hc (hchar c hmem)
  exact ⟨hnotMem (by decide), hnotMem (by decide), hnotMem (by decide)⟩

section
variable (kind : PageKind) (hosting : Hosting) (mastername buildname : Option String)

/-- The first name behind the base is the same for all requests. -/
theorem takeWhile_belowBase :
    (Percent.encodePath (PageContext.dataUrlOf kind hosting mastername buildname) ++
      dataFile).toList.takeWhile (· != '/') = (firstName hosting).toList := by
  cases hosting with
  | hosted =>
    obtain ⟨rest, hrest⟩ := PageContext.exists_dataUrlOf_hosted kind mastername buildname
    have hlist : (Percent.encodePath (PageContext.dataUrlOf kind .hosted mastername buildname) ++
        dataFile).toList = "data".toList ++ '/' :: (Percent.encodePath rest ++ dataFile).toList := by
      rw [hrest, Percent.encodePath_append, String.append_assoc, String.toList_append]
      rfl
    rw [hlist, Fields.takeWhile_append_sep (by decide)]
    rfl
  | inline =>
    have hempty : Percent.encodePath "" = "" := rfl
    show (Percent.encodePath "" ++ dataFile).toList.takeWhile (· != '/') = dataFile.toList
    rw [hempty, String.empty_append]
    decide

theorem head?_belowBase :
    (Percent.encodePath (PageContext.dataUrlOf kind hosting mastername buildname) ++
      dataFile).toList.head? ≠ some '/' := by
  intro hslash
  have hfirst := takeWhile_belowBase kind hosting mastername buildname
  obtain ⟨rest, hrest⟩ := List.head?_eq_some_iff.mp hslash
  rw [hrest, List.takeWhile_cons_of_neg (by decide)] at hfirst
  cases hosting <;> exact absurd hfirst (by decide)

end

/-- The address of a page's documents, whatever the names in its request are: the base with a slash
at its end, the data directory with its names encoded, and the name of the document. Encoding leaves
the slashes as they are and is undone piece by piece. The address keeps the base's scheme and host
and has a query or a fragment only if the base has one; where the base names no host, the names do
not choose one. No other data directory has this address. -/
theorem fetch_address (base root : String) (kind : PageKind) (hosting : Hosting)
    (mastername buildname : Option String) :
    let ctx := PageContext.new kind hosting mastername buildname
    let address := addressFor base root ctx
    (∃ path : String, address = directory base ++ path ++ ".data.json" ∧
      (∀ c ∈ path.toList, c = '/' ∨ Percent.IsEncodedChar c) ∧
      path.toList.count '/' = ctx.dataUrl.toList.count '/' ∧
      (split '/' path.toList).map Percent.decode? = (split '/' ctx.dataUrl.toList).map some) ∧
    Address.ReachedFrom (Address.parse (directory base).toList) (Address.parse address.toList) ∧
    (∀ mastername' buildname',
      (Address.parse (addressFor base root
        (PageContext.new kind hosting mastername' buildname')).toList).authority =
      (Address.parse address.toList).authority) ∧
    ∀ ctx' : PageContext, addressFor base root ctx' = address → ctx'.dataUrl = ctx.dataUrl := by
  intro ctx address
  have haddress (ctx : PageContext) : addressFor base root ctx =
      directory base ++ (Percent.encodePath ctx.dataUrl ++ dataFile) := httpUrl_eq base ctx.dataUrl
  refine ⟨⟨Percent.encodePath ctx.dataUrl, ?_, fun c hc => ?_, ?_, ?_⟩, ?_, ?_, ?_⟩
  · rw [String.append_assoc]
    exact haddress ctx
  · exact Percent.isEncodedChar_of_mem_encodePath hc
  · exact Percent.count_encodePath ctx.dataUrl
  · exact Percent.map_decode?_split_encodePath ctx.dataUrl
  · rw [show address = _ from haddress ctx, String.toList_append]
    exact Address.reachedFrom_append (getLast?_directory base) (unmarked_belowBase _)
      (head?_belowBase kind hosting mastername buildname)
  · intro mastername' buildname'
    rw [haddress, show address = _ from haddress ctx, String.toList_append,
      String.toList_append (s := directory base)]
    refine Address.authority_append_congr (getLast?_directory base) (unmarked_belowBase _)
      (head?_belowBase kind hosting mastername' buildname') (unmarked_belowBase _)
      (head?_belowBase kind hosting mastername buildname) ?_
    exact (takeWhile_belowBase kind hosting mastername' buildname').trans
      (takeWhile_belowBase kind hosting mastername buildname).symm
  · intro ctx' hsame
    rw [haddress, show address = _ from haddress ctx, String.append_right_inj,
      String.append_left_inj] at hsame
    exact Percent.encodePath_injective hsame

/-- Names that hold marks of addresses and characters beyond ASCII. -/
theorem fetch_address_of_marked_names :
    let base := "http://pkg.example.org/bulk"
    let ctx := PageContext.new .build .hosted (some "a?b") (some "#1 é")
    let address := addressFor base "" ctx
    let parts := Address.parse address.toList
    address = "http://pkg.example.org/bulk/data/a%3Fb/%231%20%C3%A9/.data.json" ∧
      parts.authority = some "pkg.example.org".toList ∧ parts.query = none ∧
      parts.fragment = none ∧
      ∀ ctx' : PageContext, addressFor base "" ctx' = address → ctx'.dataUrl = "data/a?b/#1 é/" := by
  intro base ctx address parts
  obtain ⟨-, hreached, -, hsame⟩ := fetch_address base "" .build .hosted (some "a?b") (some "#1 é")
  have hbase : Address.parse (directory base).toList = ⟨some "http".toList,
      some "pkg.example.org".toList, "/bulk/".toList, none, none⟩ := by decide +kernel
  rw [hbase] at hreached
  refine ⟨by decide +kernel, hreached.authority (by decide), ?_, ?_, hsame⟩
  · rw [← Option.not_isSome_iff_eq_none, hreached.query]
    exact Bool.false_ne_true
  · rw [← Option.not_isSome_iff_eq_none, hreached.fragment]
    exact Bool.false_ne_true

end Source

end BuildBoard
