import BuildBoard.Page.Link
import BuildBoard.Proofs.Text.Address
import BuildBoard.Proofs.Text.Entities

/-!
# Links between pages

The name of a build leads to the page of that build, and the name of a master to its history. Both
names are in the query of the link's address, encoded twice: percent-encoded in the address, and the
address escaped in the markup. Undoing both gives the names back whatever they are, so no two builds
share a link. The one link of another kind is that of a page to its own top.

Results:
1. `Link.href?_build`: the address in the link of a build's name, if there is one.
2. `Link.leadsTo_build`, `Link.leadsTo_master`: where the links lead.
3. `Link.links_identify_target`: all of it, with what two links of one address have in common.
-/

namespace BuildBoard

open Html Address

/-! ## Definitions -/

/-- The pieces of markup cut at its quotes are in turn text outside of quotes and quoted values. This
is the first value behind text that ends like this. -/
def Html.valueBehind? (name : List Char) : List (List Char) → Option (List Char)
  | outside :: value :: pieces =>
    if name.isSuffixOf outside then some value else valueBehind? name pieces
  | _ => none

namespace PageContext

/-- This is the page of the build. -/
def IsBuild (ctx : PageContext) (mastername buildname : String) : Prop :=
  ctx.kind = .build ∧ ctx.mastername = some mastername ∧ ctx.buildname = some buildname

/-- This is the history page of the master. -/
def IsHistory (ctx : PageContext) (mastername : String) : Prop :=
  ctx.kind = .jail ∧ ctx.mastername = some mastername

instance (ctx : PageContext) (mastername buildname : String) :
    Decidable (ctx.IsBuild mastername buildname) := inferInstanceAs (Decidable (_ ∧ _))

instance (ctx : PageContext) (mastername : String) : Decidable (ctx.IsHistory mastername) :=
  inferInstanceAs (Decidable (_ ∧ _))

end PageContext

namespace Link

/-- The value of the attribute `href`, as it is written in the markup. -/
def href? (markup : String) : Option String :=
  (valueBehind? " href=".toList (Fields.split '"' markup.toList)).map String.ofList

/-- The address in the link, with its escaping undone, is a page and a query with exactly these
parameters; there is nothing else in it. -/
def LeadsTo (markup page : String) (parameters : List (String × String)) : Prop :=
  ∃ query : String,
    (href? markup).map unescape = some (page ++ "?" ++ query) ∧
    parse (page ++ "?" ++ query).toList =
      ⟨none, none, page.toList, some query.toList, none⟩ ∧
    parameters? query.toList = some parameters

/-! ## The address in a link -/

theorem quote_notMem {s : String} (h : Inert s) : '"' ∉ s.toList :=
  fun hmem => h _ hmem (by decide)

theorem href?_titled {title url : String} (htitle : Inert title) (hurl : Inert url)
    (text : String) : href? (titled title url text) = some url := by
  have hlist : (titled title url text).toList =
      "<a title=".toList ++ '"' :: (title.toList ++ '"' :: (" href=".toList ++
        '"' :: (url.toList ++ '"' :: (">" ++ text ++ "</a>").toList))) := by
    unfold titled
    simp
  rw [href?, hlist, Fields.split_append_sep (by decide),
    Fields.split_append_sep (quote_notMem htitle), Fields.split_append_sep (by decide),
    Fields.split_append_sep (quote_notMem hurl)]
  show some (String.ofList url.toList) = _
  rw [String.ofList_toList]

theorem href?_top (text : String) : href? (top text) = some "#top" := by
  have hlist : (top text).toList = "<a href=".toList ++ '"' :: ("#top".toList ++
      '"' :: (">" ++ escape text ++ "</a>").toList) := by
    unfold top
    simp
  rw [href?, hlist, Fields.split_append_sep (by decide), Fields.split_append_sep (by decide)]
  rfl

theorem href?_of_inert {s : String} (h : Inert s) : href? s = none := by
  rw [href?, Fields.split_of_notMem (quote_notMem h)]
  rfl

theorem href?_build (ctx : PageContext) (mastername buildname : String) :
    href? (build ctx mastername buildname) =
      if mastername = "" ∨ buildname = "" then none
      else if ctx.IsBuild mastername buildname then some "#top"
      else some (escape (buildUrl mastername buildname)) := by
  unfold build
  by_cases hmaster : mastername = ""
  · rw [if_pos (by simp [hmaster]), if_pos (.inl hmaster)]
    exact href?_of_inert (inert_escape buildname)
  by_cases hbuild : buildname = ""
  · rw [if_neg (by simp [hmaster]), if_pos (by simp [hbuild]), if_pos (.inr hbuild)]
    exact href?_of_inert (by decide)
  have hnamed : ¬ (mastername = "" ∨ buildname = "") := not_or.mpr ⟨hmaster, hbuild⟩
  rw [if_neg (by simp [hmaster]), if_neg (by simp [hbuild]), if_neg hnamed]
  by_cases hown : ctx.IsBuild mastername buildname
  · rw [if_pos hown, if_pos (by simpa [PageContext.IsBuild, and_assoc] using hown)]
    exact href?_top buildname
  · rw [if_neg hown, if_neg (by simpa [PageContext.IsBuild, and_assoc] using hown)]
    exact href?_titled ((inert_append _ _).mpr ⟨by decide, inert_escape _⟩) (inert_escape _) _

theorem href?_master {ctx : PageContext} {mastername : String} (hmaster : mastername ≠ "")
    (hother : ¬ ctx.IsHistory mastername) :
    href? (master ctx mastername) = some (escape (historyUrl ctx.hosting mastername)) := by
  unfold master
  rw [if_neg (by simp [hmaster]), if_neg (by simpa [PageContext.IsHistory] using hother)]
  exact href?_titled ((inert_append _ _).mpr ⟨by decide, inert_escape _⟩) (inert_escape _) _

/-! ## Where links lead -/

theorem leadsTo_of_href? {markup page : String} {parameters : List (String × String)}
    (hpage : ∀ c ∈ page.toList, c ∉ ['#', '?', ':', '/']) (hne : parameters ≠ [])
    (hnames : ∀ p ∈ parameters, Percent.IsPlain p.1)
    (h : href? markup = some (escape (page ++ "?" ++ writeQuery parameters))) :
    LeadsTo markup page parameters := by
  refine ⟨writeQuery parameters, ?_, ?_, parameters?_writeQuery hnames hne⟩
  · rw [h, Option.map_some, unescape_escape]
  · have hcut : (page ++ "?" ++ writeQuery parameters).toList =
        page.toList ++ '?' :: (writeQuery parameters).toList := by simp
    rw [hcut, parse_page hpage (hash_notMem_writeQuery hnames)]

theorem buildUrl_eq {mastername buildname : String} (hmaster : mastername ≠ "")
    (hbuild : buildname ≠ "") :
    buildUrl mastername buildname =
      "build.html" ++ "?" ++ writeQuery [("mastername", mastername), ("build", buildname)] := by
  unfold buildUrl
  rw [if_neg (by simp [hmaster, hbuild]), writeQuery_cons, writeQuery_singleton,
    show "build.html?mastername=" = "build.html" ++ "?" ++ ("mastername" ++ "=") from rfl,
    show "&build=" = "&" ++ ("build" ++ "=") from rfl]
  simp only [String.append_assoc]

theorem historyUrl_hosted {mastername : String} (hmaster : mastername ≠ "") :
    historyUrl .hosted mastername = "jail.html" ++ "?" ++ writeQuery [("mastername", mastername)] := by
  unfold historyUrl
  rw [if_neg (by simp [hmaster]), writeQuery_singleton,
    show "jail.html?mastername=" = "jail.html" ++ "?" ++ ("mastername" ++ "=") from rfl]
  simp only [String.append_assoc]

theorem leadsTo_build {ctx : PageContext} {mastername buildname : String}
    (hmaster : mastername ≠ "") (hbuild : buildname ≠ "")
    (hother : ¬ ctx.IsBuild mastername buildname) :
    LeadsTo (build ctx mastername buildname) "build.html"
      [("mastername", mastername), ("build", buildname)] := by
  refine leadsTo_of_href? (List.forall_iff_forall_mem.mp (by decide)) (List.cons_ne_nil _ _) ?_ ?_
  · simp only [List.forall_mem_cons]
    exact ⟨by decide, by decide, List.forall_mem_nil _⟩
  · rw [href?_build, if_neg (not_or.mpr ⟨hmaster, hbuild⟩), if_neg hother,
      buildUrl_eq hmaster hbuild]

theorem leadsTo_master {ctx : PageContext} {mastername : String} (hmaster : mastername ≠ "")
    (hhosted : ctx.hosting = .hosted) (hother : ¬ ctx.IsHistory mastername) :
    LeadsTo (master ctx mastername) "jail.html" [("mastername", mastername)] := by
  refine leadsTo_of_href? (List.forall_iff_forall_mem.mp (by decide)) (List.cons_ne_nil _ _) ?_ ?_
  · simp only [List.forall_mem_cons]
    exact ⟨by decide, List.forall_mem_nil _⟩
  · rw [href?_master hmaster hother, hhosted, historyUrl_hosted hmaster]

/-- An address leads to one page, with one list of parameters. -/
theorem LeadsTo.unique {markup markup' page page' : String}
    {parameters parameters' : List (String × String)} (h : LeadsTo markup page parameters)
    (h' : LeadsTo markup' page' parameters') (hhref : href? markup = href? markup') :
    page = page' ∧ parameters = parameters' := by
  obtain ⟨query, haddress, hparts, hparameters⟩ := h
  obtain ⟨query', haddress', hparts', hparameters'⟩ := h'
  rw [hhref, haddress', Option.some.injEq] at haddress
  rw [haddress, hparts] at hparts'
  simp only [Address.mk.injEq, Option.some.injEq, String.toList_inj] at hparts'
  obtain ⟨-, -, hpage, hquery, -⟩ := hparts'
  rw [hquery, hparameters', Option.some.injEq] at hparameters
  exact ⟨hpage, hparameters.symm⟩

/-- The top of a page is a fragment, and no query has one. -/
theorem LeadsTo.href?_ne_top {markup page : String} {parameters : List (String × String)}
    (h : LeadsTo markup page parameters) : href? markup ≠ some "#top" := by
  intro htop
  obtain ⟨query, haddress, hparts, -⟩ := h
  rw [htop, Option.map_some, Option.some.injEq] at haddress
  rw [← haddress] at hparts
  have hfragment : some "top".toList = none := congrArg fragment hparts
  cases hfragment

/-- Links between pages name their target. That of a build's name, on any page but the build's own,
leads to the page of builds with exactly this master and this build in its query, and that of a
master's name, on any hosted page but the master's own history, to the page of histories with
exactly this master. No name on any page has the link of another build. -/
theorem links_identify_target :
    (∀ (ctx : PageContext) (mastername buildname : String), mastername ≠ "" → buildname ≠ "" →
      ¬ ctx.IsBuild mastername buildname →
      LeadsTo (build ctx mastername buildname) "build.html"
        [("mastername", mastername), ("build", buildname)]) ∧
    (∀ (ctx : PageContext) (mastername : String), mastername ≠ "" → ctx.hosting = .hosted →
      ¬ ctx.IsHistory mastername →
      LeadsTo (master ctx mastername) "jail.html" [("mastername", mastername)]) ∧
    ∀ (ctx ctx' : PageContext) (mastername buildname mastername' buildname' : String),
      mastername ≠ "" → buildname ≠ "" → ¬ ctx.IsBuild mastername buildname →
      href? (build ctx' mastername' buildname') = href? (build ctx mastername buildname) →
      mastername' = mastername ∧ buildname' = buildname := by
  refine ⟨fun ctx m b hm hb hother => leadsTo_build hm hb hother,
    fun ctx m hm hhosted hother => leadsTo_master hm hhosted hother, ?_⟩
  intro ctx ctx' m b m' b' hm hb hother hhref
  have hleads := leadsTo_build hm hb hother
  have hbuild' := href?_build ctx' m' b'
  rw [hhref] at hbuild'
  split at hbuild'
  · rw [href?_build, if_neg (not_or.mpr ⟨hm, hb⟩), if_neg hother] at hbuild'
    cases hbuild'
  next hnamed =>
    obtain ⟨hm', hb'⟩ := not_or.mp hnamed
    split at hbuild'
    · exact absurd hbuild' hleads.href?_ne_top
    next hother' =>
      obtain ⟨-, hparameters⟩ := (leadsTo_build hm' hb' hother').unique hleads hhref
      simpa using hparameters

/-- Names that hold separators of queries, marks of addresses, quotes and entities. -/
theorem link_of_hostile_names :
    let ctx := PageContext.new .build .hosted (some "m") (some "b")
    let mastername := "a&build=x#y\"&amp;"
    let buildname := "?100%25 é'/"
    (mastername ≠ "" ∧ buildname ≠ "" ∧ ctx.hosting = .hosted ∧
      ¬ ctx.IsBuild mastername buildname ∧ ¬ ctx.IsHistory mastername) ∧
    LeadsTo (build ctx mastername buildname) "build.html"
      [("mastername", mastername), ("build", buildname)] ∧
    LeadsTo (master ctx mastername) "jail.html" [("mastername", mastername)] ∧
    ∀ mastername' buildname',
      href? (build ctx mastername' buildname') = href? (build ctx mastername buildname) →
      mastername' = mastername ∧ buildname' = buildname := by
  intro ctx mastername buildname
  obtain ⟨hbuild, hmaster, hshared⟩ := links_identify_target
  refine ⟨by decide, hbuild ctx _ _ (by decide) (by decide) (by decide),
    hmaster ctx _ (by decide) rfl (by decide), fun m b hhref => ?_⟩
  exact hshared ctx ctx _ _ m b (by decide) (by decide) (by decide) hhref

example : href? (build (PageContext.new .index .hosted none none) "a&b" "1 <2>") =
    some "build.html?mastername=a%26b&amp;build=1%20%3C2%3E" := by decide +kernel

end Link

end BuildBoard
