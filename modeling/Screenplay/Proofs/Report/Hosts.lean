/-
The hosts of addresses that are fetched without encryption. The check of an address looks at what follows the
scheme, and takes its beginning for the host. So it lets through what starts with the name of the local host:
the addresses of the local host, and those of any host that carry this name in front, as user information or
as a bracketed address that goes on.
-/
import Mathlib.Data.List.DropRight
import Screenplay.Proofs.Report.Safety

namespace Screenplay

open Screenplay.Text

/-! ## External resources -/

/-- The external resources at a site: the source of an image, if it is an address. -/
def Site.resources : Site → List Finding
  | .node _ (.image source) =>
    let folded := fold (trim source.toList)
    if Finding.plainScheme.isPrefixOf folded || "https://".toList.isPrefixOf folded then
      [.resource (String.ofList (trim source.toList))] else []
  | _ => []

namespace Finding

/-- A finding that records an external resource. -/
def isResource : Finding → Bool
  | resource _ => true
  | _ => false

instance : Records isResource := ⟨fun _ => rfl, fun _ => rfl, fun _ => rfl⟩

variable {policy : Policy}

theorem resources_ofUrl (url : List Char) :
    (ofUrl policy url).filter isResource = [resource (String.ofList url)] := by
  unfold ofUrl
  dsimp only
  split
  · rfl
  · split <;> rfl

theorem resources_ofImage (depth : Nat) (source : String) :
    (ofImage policy source).filter isResource = (Site.node depth (.image source)).resources := by
  unfold ofImage Site.resources
  rw [List.filter_append, List.filter_append, List.filter_append, records_map fun _ => rfl, records_ofText]
  dsimp only
  split
  · rw [resources_ofUrl]
    rfl
  · rfl

theorem resources_ofImport (path : String) : (ofImport policy path).filter isResource = [] := by
  unfold ofImport
  rw [List.filter_append, List.filter_cons_of_neg Bool.false_ne_true, records_ofText]
  split
  · rfl
  · split <;> rfl

/-- What an analysis records of the external resources at a site, whatever its policy. -/
theorem resources_ofSite (site : Site) : (ofSite policy site).filter isResource = site.resources := by
  cases site with
  | node depth n =>
    cases n with
    | image source =>
      simp only [ofSite, ofNode, List.filter_append, records_ofLimit, resources_ofImage depth, List.nil_append]
    | input label binding =>
      simp only [ofSite, ofNode, List.filter_append, records_ofLimit, records_ofString, records_ofStateName,
        List.nil_append]
      split <;> rfl
    | _ => simp [ofSite, ofNode, Site.resources, isResource]
  | handler | property | block => simp [ofSite, Site.resources]
  | action a => cases a <;> simp [ofSite, ofAction, Site.resources, isResource]
  | expr depth e =>
    cases e with
    | literal v => cases v <;> simp [ofSite, ofExpr, Site.resources]
    | _ => simp [ofSite, ofExpr, Site.resources, isResource]

/-- The external resource at an image whose source is an address. -/
theorem mem_siteResources {site : Site} {url : String} :
    resource url ∈ site.resources ↔
      ∃ depth s, site = .node depth (.image s) ∧ url.toList = trim s.toList ∧
        ∃ scheme ∈ [plainScheme, "https://".toList], scheme <+: fold (trim s.toList) := by
  have own (text : List Char) : resource url ∈ [resource (String.ofList text)] ↔ url.toList = text := by
    rw [List.mem_singleton, resource.injEq, ← String.toList_inj, String.toList_ofList]
  have scheme (text : List Char) :
      (plainScheme.isPrefixOf text || "https://".toList.isPrefixOf text) = true ↔
        ∃ scheme ∈ [plainScheme, "https://".toList], scheme <+: text := by
    simp only [Bool.or_eq_true, List.isPrefixOf_iff_prefix, List.mem_pair, exists_eq_or_imp, exists_eq_left]
  unfold Site.resources
  split
  · next depth s =>
    dsimp only
    split
    · next h =>
      rw [own]
      refine ⟨fun he => ⟨depth, s, rfl, he, (scheme _).mp h⟩, ?_⟩
      rintro ⟨_, _, hs, he, -⟩
      cases hs
      exact he
    · next h =>
      refine iff_of_false List.not_mem_nil ?_
      rintro ⟨_, _, hs, -, he⟩
      cases hs
      exact h ((scheme _).mpr he)
  · next h => exact iff_of_false List.not_mem_nil fun ⟨depth, s, hs, _⟩ => h depth s hs

/-- The external resources of a program are the addresses that it fetches. -/
theorem resource_mem {p : Program} {source : Option String} {url : String} :
    resource url ∈ ofProgram policy p source ↔ p.Fetches source url.toList := by
  have filtered : resource url ∈ ofProgram policy p source ↔
      resource url ∈ (ofProgram policy p source).filter isResource := by
    rw [List.mem_filter, isResource, eq_self, and_true]
  rw [filtered, records_ofProgram resources_ofImport resources_ofSite resources_ofUrl, List.mem_append,
    List.mem_append, List.flatMap_eq_nil_iff.mpr fun _ _ => rfl, or_iff_right List.not_mem_nil,
    List.mem_flatMap, List.mem_flatMap]
  constructor
  · rintro (⟨site, hs, hu⟩ | ⟨text, ht, hu⟩)
    · obtain ⟨depth, s, rfl, he, scheme⟩ := mem_siteResources.mp hu
      rw [he]
      exact .image (Program.exists_has_node.mp ⟨depth, List.mem_flatMap.mp hs⟩) scheme
    · cases List.mem_singleton.mp hu
      rw [String.toList_ofList]
      cases source with
      | none => exact absurd (mem_urls.mp ht) (not_addressIn_nil _)
      | some whole => exact .source rfl (mem_urls.mp ht)
  · intro h
    generalize ht : url.toList = text at h
    cases h with
    | image hn hs =>
      obtain ⟨depth, hd⟩ := Program.exists_has_node.mpr hn
      exact .inl ⟨_, List.mem_flatMap.mpr hd, mem_siteResources.mpr ⟨depth, _, rfl, ht, hs⟩⟩
    | source hs hu =>
      refine .inr ⟨text, mem_urls.mpr (by rwa [hs]), List.mem_singleton.mpr ?_⟩
      rw [← ht, String.ofList_toList]

end Finding

/-! ## Hosts -/

namespace Finding

/-- The authority of an address: what stands between its scheme and the next slash, question mark or hash. -/
def authority (url : List Char) : List Char :=
  (url.drop plainScheme.length).takeWhile (· ∉ ['/', '?', '#'])

/-- An authority without its port. A host in brackets holds colons of its own. -/
def withoutPort : List Char → List Char
  | '[' :: cs => '[' :: cs.takeWhile (· ≠ ']') ++ (cs.dropWhile (· ≠ ']')).takeWhile (· ≠ ':')
  | cs => cs.takeWhile (· ≠ ':')

/-- The host that an authority names: what follows its last `@`, without the port. -/
def host (authority : List Char) : List Char := withoutPort (authority.rtakeWhile (· ≠ '@'))

/-- A name of the local host, case ignored. -/
def IsLocalHost (host : List Char) : Prop := String.ofList (fold host) ∈ localHosts

instance (host : List Char) : Decidable (IsLocalHost host) := inferInstanceAs (Decidable (_ ∈ _))

/-- A text that starts like an authority of the local host: with the bracketed local address, or with a name of
the local host and a colon. -/
inductive Opens : List Char → Prop
  | bracketed (rest : List Char) : Opens ("[::1]".toList ++ rest)
  | named {name : List Char} (h : IsLocalHost name) (hc : ':' ∉ name) (rest : List Char) :
    Opens (name ++ ':' :: rest)

/-- An authority that starts like one of the local host and names another host. -/
inductive Masks : List Char → Prop
  /-- The local host stands in the user information. -/
  | user {user rest : List Char} (h : Opens user) (hr : '@' ∉ rest) (other : ¬ IsLocalHost (withoutPort rest)) :
    Masks (user ++ '@' :: rest)
  /-- The host goes on after the bracketed local address. -/
  | bracketed {c : Char} {rest : List Char} (hc : c ≠ ':') (hu : '@' ∉ c :: rest) :
    Masks ("[::1]".toList ++ c :: rest)

/-! ### Names of the local host -/

/-- Only a character itself has a lower case that holds it, if it comes before the small letters. -/
theorem eq_of_mem_foldChar {c d : Char} (hc : c.toNat < 97) (h : c ∈ foldChar d) : c = d := by
  unfold foldChar at h
  split at h
  · cases List.mem_singleton.mp h
    exact absurd hc (by decide)
  · split at h
    · rcases List.mem_pair.mp h with rfl | rfl <;> exact absurd hc (by decide)
    · rw [List.mem_singleton] at h
      subst h
      delta Char.toLower at *
      split
      · next capital =>
        rw [dif_pos capital, Char.toNat, UInt32.toNat_add] at hc
        obtain ⟨low, high⟩ := capital
        rw [ge_iff_le, UInt32.le_iff_toNat_le] at low
        rw [UInt32.le_iff_toNat_le] at high
        have a : 'A'.val.toNat = 65 := rfl
        have z : 'Z'.val.toNat = 90 := rfl
        have gap : ('a'.val - 'A'.val).toNat = 32 := rfl
        omega
      · rfl

theorem mem_fold {c : Char} (own : foldChar c = [c]) (hc : c.toNat < 97) {text : List Char} :
    c ∈ fold text ↔ c ∈ text := by
  rw [fold, List.mem_flatMap]
  constructor
  · rintro ⟨d, hd, h⟩
    rwa [eq_of_mem_foldChar hc h]
  · exact fun h => ⟨c, h, own ▸ List.mem_singleton_self c⟩

theorem isLocalHost_iff {name : List Char} :
    IsLocalHost name ↔ fold name = "localhost".toList ∨ fold name = "127.0.0.1".toList ∨
      fold name = "[::1]".toList := by
  have own (local_ : String) : String.ofList (fold name) = local_ ↔ fold name = local_.toList := by
    rw [← String.toList_inj, String.toList_ofList]
  rw [IsLocalHost, localHosts, List.mem_cons, List.mem_pair, own, own, own]

/-- A name of the local host that is not the bracketed one ends no authority. -/
theorem IsLocalHost.not_mem {name : List Char} (h : IsLocalHost name) (hc : ':' ∉ name) {c : Char}
    (hm : c ∈ ['/', '?', '#', '@', '[']) : c ∉ name := by
  have others : ['/', '?', '#', '@', '['].all (fun c => foldChar c = [c] ∧ c.toNat < 97 ∧
      c ∉ "localhost".toList ∧ c ∉ "127.0.0.1".toList) = true := by decide
  obtain ⟨own, low, first, second⟩ := of_decide_eq_true (List.all_eq_true.mp others c hm)
  -- upper and lower case do not matter for these marks, so the name is as good as its folded form
  rw [← mem_fold own low]
  rw [← mem_fold rfl (by decide)] at hc
  rcases isLocalHost_iff.mp h with he | he | he
  · exact he ▸ first
  · exact he ▸ second
  · exact absurd (he ▸ by decide) hc

theorem isLocalHost_bracketed {rest : List Char} : IsLocalHost ("[::1]".toList ++ rest) ↔ rest = [] := by
  have split : fold ("[::1]".toList ++ rest) = "[::1]".toList ++ fold rest := List.flatMap_append ..
  have head (other : List Char) (h : other.head? ≠ some '[') : "[::1]".toList ++ fold rest ≠ other := by
    rintro rfl
    exact h rfl
  rw [isLocalHost_iff, split, or_iff_right (head _ (by decide)), or_iff_right (head _ (by decide)),
    List.append_right_eq_self]
  cases rest with
  | nil => simp [fold]
  | cons c cs =>
    have : foldChar c ≠ [] := by unfold foldChar; split <;> [skip; split] <;> exact List.cons_ne_nil _ _
    simp [fold, this]

/-! ### Hosts of authorities -/

theorem host_of_no_user {text : List Char} (h : '@' ∉ text) : host text = withoutPort text := by
  rw [host, List.rtakeWhile_eq_self_iff.mpr fun c hc => ?_]
  rw [decide_eq_true_iff]
  rintro rfl
  exact h hc

theorem host_of_user {user rest : List Char} (h : '@' ∉ rest) :
    host (user ++ '@' :: rest) = withoutPort rest := by
  have last : (user ++ '@' :: rest).rtakeWhile (· ≠ '@') = rest := by
    rw [List.rtakeWhile, List.reverse_append, List.reverse_cons, List.append_assoc,
      takeWhile_eq_of_ends, List.reverse_reverse]
    · intro c hc
      rw [decide_eq_true_iff]
      rintro rfl
      exact h (List.mem_reverse.mp hc)
    · intro c hc
      cases hc
      rfl
  rw [host, last]

theorem withoutPort_bracketed (rest : List Char) :
    withoutPort ("[::1]".toList ++ rest) = "[::1]".toList ++ rest.takeWhile (· ≠ ':') :=
  rfl

/-- A name of the local host is left when the port is cut off. -/
theorem withoutPort_named {name rest : List Char} (h : IsLocalHost name) (hc : ':' ∉ name)
    (hr : ∀ c, rest.head? = some c → c = ':') : withoutPort (name ++ rest) = name := by
  have whole : (name ++ rest).takeWhile (· ≠ ':') = name := by
    refine takeWhile_eq_of_ends (fun c hm => ?_) fun c hm => by simp [hr c hm]
    rw [decide_eq_true_iff]
    rintro rfl
    exact hc hm
  cases name with
  | nil => exact absurd h (by decide)
  | cons c cs =>
    unfold withoutPort
    split
    · next heq =>
      cases heq
      exact absurd List.mem_cons_self (h.not_mem hc (by decide))
    · exact whole

/-! ### What the check lets through -/

/-- An address that the check takes for one of the local host starts like one, or its authority is a name of
the local host. -/
theorem opens_or_of_local {url : List Char} (h : Local url) :
    Opens (authority url) ∨ IsLocalHost (authority url) ∧ ':' ∉ authority url := by
  have stop {c : Char} {cs : List Char} (hc : c ∈ ['/', '?', '#']) :
      (c :: cs).takeWhile (· ∉ ['/', '?', '#']) = [] := by
    rw [List.takeWhile_cons_of_neg (by rwa [decide_eq_true_iff, not_not])]
  -- the check has found the bracketed address, or a name up to a colon or a slash
  rcases h with ⟨rest, hr⟩ | ⟨name, rest, hr, all, ends, hn⟩
  · refine .inl ?_
    rw [authority, ← hr, List.takeWhile_append_of_pos (List.all_eq_true.mp (by decide))]
    exact .bracketed _
  · have colon : ':' ∉ name := fun hm => (all _ hm).2 rfl
    have clean : ∀ c ∈ name, decide (c ∉ ['/', '?', '#']) = true := by
      intro c hc
      rw [decide_eq_true_iff]
      intro hm
      refine IsLocalHost.not_mem hn colon ?_ hc
      exact List.mem_append_left ['@', '['] hm
    rw [authority, ← hr, List.takeWhile_append_of_pos clean]
    cases rest with
    | nil => exact .inr (by simpa using ⟨hn, colon⟩)
    | cons c cs =>
      rcases ends c rfl with rfl | rfl
      · exact .inr (by rw [stop (by decide), List.append_nil]; exact ⟨hn, colon⟩)
      · rw [List.takeWhile_cons_of_pos (by decide)]
        exact .inl (.named hn colon _)

/-- The host of an authority that masks another host is not the local one. -/
theorem Masks.not_isLocalHost {text : List Char} (h : Masks text) : ¬ IsLocalHost (host text) := by
  cases h with
  | user h hr other => rwa [host_of_user hr]
  | @bracketed c rest hc hu =>
    have : '@' ∉ "[::1]".toList ++ c :: rest := by
      rw [List.mem_append, not_or]
      exact ⟨by decide, hu⟩
    rw [host_of_no_user this, withoutPort_bracketed, isLocalHost_bracketed,
      List.takeWhile_cons_of_pos (by simpa using hc)]
    exact List.cons_ne_nil _ _

/-- What stands before the last `@` of an authority starts as the whole does. -/
theorem Opens.user {user rest : List Char} (h : Opens (user ++ '@' :: rest)) : Opens user := by
  -- a part without an `@` in it ends before the last one
  have start {part more : List Char} (he : part ++ more = user ++ '@' :: rest) (hp : '@' ∉ part) :
      part <+: user := by
    rcases List.prefix_or_prefix_of_prefix ⟨more, he⟩ (List.prefix_append user _) with h | ⟨left, rfl⟩
    · exact h
    · rw [List.append_assoc, List.append_cancel_left_eq] at he
      cases left with
      | nil => rw [List.append_nil]
      | cons c cs =>
        cases he
        exact absurd (List.mem_append_right _ List.mem_cons_self) hp
  generalize he : user ++ '@' :: rest = text at h
  cases h with
  | bracketed more =>
    obtain ⟨more, rfl⟩ := start he.symm (by decide)
    exact .bracketed more
  | @named name hn hc more =>
    have clean : '@' ∉ name ++ [':'] := by
      rw [List.mem_append, not_or]
      exact ⟨hn.not_mem hc (by decide), by decide⟩
    obtain ⟨more, rfl⟩ := start (by simpa using he.symm) clean
    rw [List.append_assoc]
    exact .named hn hc more

/-- What starts like an authority of the local host names it or masks another. -/
theorem Opens.isLocalHost_or_masks {text : List Char} (h : Opens text) :
    IsLocalHost (host text) ∨ Masks text := by
  -- only what follows the last `@` names the host
  by_cases user : '@' ∈ text
  · obtain ⟨after, before, he, last⟩ := List.eq_append_cons_of_mem (List.mem_reverse.mpr user)
    obtain rfl : text = before.reverse ++ '@' :: after.reverse := by
      rw [← List.reverse_reverse text, he]
      simp
    rw [List.mem_reverse.not.symm] at last
    rw [host_of_user last]
    by_cases other : IsLocalHost (withoutPort after.reverse)
    · exact .inl other
    · exact .inr (.user h.user last other)
  · rw [host_of_no_user user]
    cases h with
    | bracketed rest =>
      rw [withoutPort_bracketed, isLocalHost_bracketed]
      cases rest with
      | nil => exact .inl rfl
      | cons c cs =>
        by_cases hc : c = ':'
        · exact .inl (List.takeWhile_cons_of_neg (by simpa using hc))
        · exact .inr (.bracketed hc fun h => user (List.mem_append_right _ h))
    | named hn hc rest =>
      rw [withoutPort_named hn hc (by simp)]
      exact .inl hn

/-- An address that the check takes for one of the local host is one, unless its authority masks another
host. -/
theorem isLocalHost_iff_of_local {url : List Char} (h : Local url) :
    IsLocalHost (host (authority url)) ↔ ¬ Masks (authority url) := by
  refine ⟨fun own masks => masks.not_isLocalHost own, fun none => ?_⟩
  rcases opens_or_of_local h with h | ⟨hn, hc⟩
  · exact h.isLocalHost_or_masks.resolve_right none
  · rwa [host_of_no_user (hn.not_mem hc (by decide)), ← List.append_nil (authority url),
      withoutPort_named hn hc (by simp)]

theorem Masks.opens {text : List Char} (h : Masks text) : Opens text := by
  cases h with
  | @user user rest h =>
    cases h with
    | bracketed more =>
      rw [List.append_assoc]
      exact .bracketed _
    | named hn hc more =>
      rw [List.append_assoc]
      exact .named hn hc _
  | bracketed => exact .bracketed _

/-- The check takes every address whose authority masks another host for one of the local host. -/
theorem local_of_masks {url : List Char} (h : Masks (authority url)) : Local url := by
  have opens := h.opens
  obtain ⟨after, hr⟩ : authority url <+: url.drop plainScheme.length := List.takeWhile_prefix _
  generalize authority url = text at hr opens
  cases opens with
  | bracketed rest =>
    rw [List.append_assoc] at hr
    exact .inl ⟨_, hr⟩
  | @named name hn hc rest =>
    rw [List.append_assoc] at hr
    refine .inr ⟨name, _, hr, fun c hm => ⟨?_, ?_⟩, fun c hm => ?_, hn⟩
    · rintro rfl
      exact hn.not_mem hc (by decide) hm
    · rintro rfl
      exact hc hm
    · cases hm
      exact .inr rfl

end Finding

/-! ## Reports -/

namespace Report

open Finding

/-- The resources of a report are the addresses that the program fetches. -/
theorem mem_resources {level : Level} {p : Program} {source : Option String} {report : Report}
    (h : analyze level p source = .ok report) {url : String} :
    url ∈ report.resources ↔ p.Fetches source url.toList := by
  obtain ⟨-, -, rfl⟩ := analyze_eq_ok.mp h
  refine (mem_collected resource fun f name => ?_).trans resource_mem
  cases f <;> simp

/-- The resources that a program fetches without encryption at the strict level come from the local host, but
for those whose authority masks another host. -/
theorem isLocalHost_of_analyzed {p : Program} {source : Option String} {report : Report}
    (h : analyze .strict p source = .ok report) {url : String} (hu : url ∈ report.resources)
    (plain : plainScheme <+: fold url.toList) :
    IsLocalHost (host (authority url.toList)) ↔ ¬ Masks (authority url.toList) := by
  have strict : Level.strict ≠ .permissive := nofun
  have safe := safe_of_analyzed strict h
  exact isLocalHost_iff_of_local (safe.addresses rfl _ ((mem_resources h).mp hu) plain)

/-- A program that shows an image of another host, which has the local one as user information in front. -/
def signpost : Program :=
  ⟨"signpost", "Home",
    [⟨"Home", [], [], .image "http://localhost:x@pictures.example:80/shore.png", []⟩], [], [], []⟩

/-- A text around it, with an address of the local host. -/
def signpostText : Option String := some "see HTTP://a.example, http://[::1]:80/b"

/-- The resources of the signpost and of the text around it at the strict level. -/
theorem resources_signpost :
    ∃ report, analyze .strict signpost signpostText = .ok report ∧
      report.resources = ["http://[::1]:80/b", "http://localhost:x@pictures.example:80/shore.png"] := by
  have ha : (analyze .strict signpost signpostText).toOption.any (fun report =>
      decide (report.resources =
        ["http://[::1]:80/b", "http://localhost:x@pictures.example:80/shore.png"])) = true := by
    decide +kernel
  cases hr : analyze .strict signpost signpostText with
  | error v => rw [hr] at ha; cases ha
  | ok report =>
    rw [hr] at ha
    exact ⟨report, rfl, of_decide_eq_true ha⟩

/-- The first of these resources is local, and the second masks another host. -/
theorem isLocalHost_signpost :
    ∃ report, analyze .strict signpost signpostText = .ok report ∧
      "http://[::1]:80/b" ∈ report.resources ∧
      "http://localhost:x@pictures.example:80/shore.png" ∈ report.resources ∧
      ¬ Masks (authority "http://[::1]:80/b".toList) ∧
      Masks (authority "http://localhost:x@pictures.example:80/shore.png".toList) := by
  obtain ⟨report, h, resources⟩ := resources_signpost
  have first : "http://[::1]:80/b" ∈ report.resources := by
    rw [resources]
    exact List.mem_cons_self
  have second : "http://localhost:x@pictures.example:80/shore.png" ∈ report.resources := by
    rw [resources]
    exact List.mem_cons_of_mem _ List.mem_cons_self
  refine ⟨report, h, first, second, ?_, ?_⟩
  · exact (isLocalHost_of_analyzed h first (by decide)).mp (by decide)
  · exact not_not.mp ((isLocalHost_of_analyzed h second (by decide)).not.mp (by decide))

/-- The signpost is accepted at the strict level, and fetches without encryption from another host. -/
theorem not_isLocalHost_signpost :
    ∃ report, analyze .strict signpost signpostText = .ok report ∧
      ∃ url ∈ report.resources, plainScheme <+: fold url.toList ∧
        host (authority url.toList) = "pictures.example".toList ∧
        ¬ IsLocalHost (host (authority url.toList)) := by
  obtain ⟨report, h, resources⟩ := resources_signpost
  refine ⟨report, h, "http://localhost:x@pictures.example:80/shore.png", ?_, by decide, by decide, by decide⟩
  rw [resources]
  exact List.mem_cons_of_mem _ List.mem_cons_self

end Report

end Screenplay
