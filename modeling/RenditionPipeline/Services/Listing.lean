import RenditionPipeline.Library.Paging
import RenditionPipeline.Services.Videos

/-!
# The list of videos

The dashboard reads the videos page by page. The query of a page sorts them by the
instant at which they were created and by nothing else, and every page is a query of its
own, so what several pages are together depends on the orders in which the database
answers them (`RenditionPipeline.RowOrder`). They are every video once, the newest first,
just when no two videos created at the same instant are on different sides of the boundary
of two pages (`RenditionPipeline.pages_exact_iff`).
-/

namespace RenditionPipeline

/-- `VideoListItem` -/
structure VideoListItem where
  videoId : UUID
  title : String
  uploadedAt : Option Timestamp
  createdAt : Timestamp
  status : ProcessingStatus
  sizeBytes : Option ℤ
  renditions : List (String × ProcessingStatus)
deriving DecidableEq

/-- The title of a video: its file name, if it has one that is not empty, or its source. -/
def videoTitle (video : Video) : String :=
  match video.sourceFilename with
  | some filename => if filename = "" then video.source else filename
  | none => video.source

/-- The item of a row in `list_videos`. -/
def videoListItem (db : Db) (row : UUID × Video) : VideoListItem where
  videoId := row.1
  title := videoTitle row.2
  uploadedAt := row.2.uploadedAt
  createdAt := row.2.createdAt
  status := row.2.status
  sizeBytes := row.2.sourceSizeBytes
  renditions := (db.renditionsOf row.1).map fun p => (p.2.resolution, p.2.status)

/-- The rows that the query of `list_videos` selects. -/
def matchingVideos (db : Db) (status : Option ProcessingStatus) : List (UUID × Video) :=
  db.videos.select fun _ video => status.all fun s => video.status = s

/-- The key of the query. -/
def createdAtOf (row : UUID × Video) : Timestamp := row.2.createdAt

/-- An order in which the database may answer the query: by `created_at`, descending. -/
abbrev RowOrder (db : Db) (status : Option ProcessingStatus) : Type :=
  { rows : List (UUID × Video) // Paging.Ordered createdAtOf (matchingVideos db status) rows }

/-- The `page_size` that the router admits. -/
structure PageSize where
  toNat : ℕ
  pos : 1 ≤ toNat
  le : toNat ≤ 100

/-- `list_videos`, where the database takes this order; pages are counted from one. -/
def listVideos (db : Db) {status : Option ProcessingStatus} (order : RowOrder db status)
    (page : ℕ) (pageSize : PageSize) : List VideoListItem :=
  ((order.1.drop ((page - 1) * pageSize.toNat)).take pageSize.toNat).map (videoListItem db)

/-- Reading on from a page until one is short, where the database takes the order
`choice page` in the query of each page. -/
def readPages (db : Db) {status : Option ProcessingStatus} (choice : ℕ → RowOrder db status)
    (pageSize : PageSize) : ℕ → ℕ → Option (List VideoListItem)
  | 0, _ => none
  | fuel + 1, page =>
    let items := listVideos db (choice page) page pageSize
    if items.length < pageSize.toNat then some items
    else (readPages db choice pageSize fuel (page + 1)).map (items ++ ·)

/-- **Paging loses and repeats nothing**: whatever orders the database takes, reading on
from the first page comes to an end, with every video once and the newest first. -/
def PagesExactly (db : Db) (status : Option ProcessingStatus) (pageSize : PageSize) : Prop :=
  ∀ choice : ℕ → RowOrder db status, ∃ items,
    (∀ fuel, (matchingVideos db status).length / pageSize.toNat + 1 ≤ fuel →
      readPages db choice pageSize fuel 1 = some items) ∧
    items.Perm ((matchingVideos db status).map (videoListItem db)) ∧
    items.Pairwise fun a b => b.createdAt ≤ a.createdAt

section Pages

variable {db : Db} {status : Option ProcessingStatus} {choice : ℕ → RowOrder db status}
  {pageSize : PageSize}

/-- A page is a block of the order that the database takes. -/
theorem listVideos_succ (order : RowOrder db status) (j : ℕ) :
    listVideos db order (j + 1) pageSize =
      (Blocks.block pageSize.toNat order.1 j).map (videoListItem db) := rfl

/-- **Reading on from a page** gives the pages from there to the last one. -/
theorem readPages_eq (fuel : ℕ) : ∀ j,
    j ≤ (matchingVideos db status).length / pageSize.toNat →
    (matchingVideos db status).length / pageSize.toNat + 1 ≤ fuel + j →
    ∃ items, readPages db choice pageSize fuel (j + 1) = some items ∧
      (Paging.concat pageSize.toNat (fun k => (choice (k + 1)).1) j).map (videoListItem db) ++
          items =
        (Paging.concat pageSize.toNat (fun k => (choice (k + 1)).1)
          ((matchingVideos db status).length / pageSize.toNat + 1)).map (videoListItem db) := by
  induction fuel with
  | zero =>
    intro j hj hfuel
    omega
  | succ fuel ih =>
    intro j hj hfuel
    have hpos : 0 < pageSize.toNat := pageSize.pos
    have hlength : (listVideos db (choice (j + 1)) (j + 1) pageSize).length =
        min pageSize.toNat ((matchingVideos db status).length - j * pageSize.toNat) := by
      rw [listVideos_succ, List.length_map, Blocks.length_block,
        (choice (j + 1)).2.perm.length_eq]
    have hnext := Paging.concat_succ pageSize.toNat (fun k => (choice (k + 1)).1) j
    rw [readPages]
    rcases Nat.lt_or_ge j ((matchingVideos db status).length / pageSize.toNat) with hlt | hge
    · -- the page is full, and there is another one
      have hfull : (j + 1) * pageSize.toNat ≤ (matchingVideos db status).length :=
        (Nat.le_div_iff_mul_le hpos).mp hlt
      rw [Nat.succ_mul] at hfull
      obtain ⟨items, hitems, hconcat⟩ := ih (j + 1) hlt (by omega)
      refine ⟨listVideos db (choice (j + 1)) (j + 1) pageSize ++ items, ?_, ?_⟩
      · rw [if_neg (by rw [hlength]; omega), hitems, Option.map_some]
      · rw [← hconcat, hnext, List.map_append, List.append_assoc, listVideos_succ]
    · -- it is the last one, and short
      obtain rfl : j = (matchingVideos db status).length / pageSize.toNat := by omega
      have hshort : (matchingVideos db status).length < (matchingVideos db status).length /
          pageSize.toNat * pageSize.toNat + pageSize.toNat := Nat.lt_div_mul_add hpos
      refine ⟨_, if_pos ?_, ?_⟩
      · rw [hlength]
        omega
      · rw [hnext, List.map_append, listVideos_succ]

/-- All pages from the first on. -/
theorem readPages_one {fuel : ℕ}
    (hfuel : (matchingVideos db status).length / pageSize.toNat + 1 ≤ fuel) :
    readPages db choice pageSize fuel 1 =
      some ((Paging.concat pageSize.toNat (fun k => (choice (k + 1)).1)
        ((matchingVideos db status).length / pageSize.toNat + 1)).map (videoListItem db)) := by
  obtain ⟨items, hitems, hconcat⟩ := readPages_eq fuel 0 (Nat.zero_le _) hfuel
  rw [hitems, ← hconcat]
  rfl

/-- **Paging through videos loses and repeats nothing** just when no two videos created at
the same instant are on different sides of the boundary of two pages: the instants sorted,
the last of a page is never the first of the next one. -/
theorem pages_exact_iff (db : Db) (status : Option ProcessingStatus) (pageSize : PageSize) :
    PagesExactly db status pageSize ↔
      ∀ k, ¬ Paging.TieAt createdAtOf (matchingVideos db status) (k * pageSize.toNat) := by
  have hids := Table.nodup_keys_select db.videos fun _ video =>
    status.all fun s => video.status = s
  have hrows : (matchingVideos db status).Nodup := hids.of_map
  have hids' : ((matchingVideos db status).map (videoListItem db)).map VideoListItem.videoId =
      (matchingVideos db status).map Prod.fst := by
    rw [List.map_map]
    rfl
  constructor
  · intro hall k htie
    have hlt : k < (matchingVideos db status).length / pageSize.toNat + 1 :=
      Nat.lt_succ_of_le ((Nat.le_div_iff_mul_le pageSize.pos).mpr htie.2.1.le)
    obtain ⟨pages, hpages, hrepeats⟩ := Paging.exists_not_nodup_concat pageSize.pos htie hlt
    obtain ⟨items, hread, hperm, -⟩ := hall fun page => ⟨pages (page - 1), hpages _⟩
    have hitems := Option.some.inj ((readPages_one le_rfl).symm.trans (hread _ le_rfl))
    -- a row that comes out twice is an item that does
    have hnodup : (items.map VideoListItem.videoId).Nodup := by
      rw [(hperm.map VideoListItem.videoId).nodup_iff, hids']
      exact hids
    rw [← hitems, List.map_map] at hnodup
    exact hrepeats hnodup.of_map
  · intro hties choice
    have hordered : ∀ k, Paging.Ordered createdAtOf (matchingVideos db status)
        (choice (k + 1)).1 := fun k => (choice (k + 1)).2
    refine ⟨_, fun fuel hfuel => readPages_one hfuel, ?_, ?_⟩
    · exact ((Paging.perm_concat_iff pageSize.pos hrows).mpr hties _ hordered).map _
    · have hsorted : ((Paging.concat pageSize.toNat (fun k => (choice (k + 1)).1)
          ((matchingVideos db status).length / pageSize.toNat + 1)).map createdAtOf).Pairwise
            (· ≥ ·) := by
        rw [Paging.map_key_concat hordered]
        exact (List.pairwise_insertionSort _ _).sublist (List.take_sublist _ _)
      rw [List.pairwise_map] at hsorted ⊢
      exact hsorted

end Pages

/-- One of two videos created at the same instant. -/
def twinVideo (filename : String) : Video :=
  ⟨"videos/" ++ filename, none, some filename, none, none, none, none, none, none, none, .done, 0,
    none⟩

/-- Two videos created at the same instant. -/
def twins : Db :=
  { Db.empty with
    videos := ⟨[(⟨0⟩, twinVideo "a.mp4"), (⟨1⟩, twinVideo "b.mp4")], by decide⟩ }

/-- The two orders in which the database may answer. -/
def twinOrder (swapped : Bool) : RowOrder twins none :=
  if swapped then
    ⟨[(⟨1⟩, twinVideo "b.mp4"), (⟨0⟩, twinVideo "a.mp4")], List.Perm.swap _ _ _, by decide⟩
  else ⟨[(⟨0⟩, twinVideo "a.mp4"), (⟨1⟩, twinVideo "b.mp4")], List.Perm.refl _, by decide⟩

/-- **One video comes out twice and the other not at all** where the query of the second
page is answered in the other order than that of the first. -/
theorem repeated_video :
    (∃ items, readPages twins (fun page => twinOrder (page = 2)) ⟨1, by decide, by decide⟩ 3 1 =
      some items ∧ items.map VideoListItem.videoId = [⟨0⟩, ⟨0⟩]) ∧
    ¬ PagesExactly twins none ⟨1, by decide, by decide⟩ := by
  refine ⟨⟨_, rfl, by decide⟩, fun h => ?_⟩
  obtain ⟨items, hread, hperm, -⟩ := h fun page => twinOrder (page = 2)
  have hitems : readPages twins (fun page => twinOrder (page = 2)) ⟨1, by decide, by decide⟩ 3 1 =
      some items := hread 3 (by decide)
  obtain rfl := Option.some.inj hitems
  exact absurd (hperm.map VideoListItem.videoId) (by decide)

end RenditionPipeline
