import Aquatic.Http.StorageRefinement
import Aquatic.HttpProtocol.ResponseCodec

/-!
# What a scrape response says

The number of downloads is not written. In its place stands the number 0, for every file.
-/

namespace Aquatic.HttpProtocol
open Text Http Bencode
set_option autoImplicit false

theorem lt_of_compare {text other : List UInt8} (h : compare text other = .lt) : text < other := by
  induction text generalizing other with
  | nil =>
    cases other with
    | nil => cases h
    | cons second other => exact .nil
  | cons first text ih =>
    cases other with
    | nil => cases h
    | cons second other =>
      rw [List.compare_cons_cons] at h
      rcases Ordering.then_eq_lt.mp h with hlt | ⟨heq, hlt⟩
      · exact .rel (Std.compare_eq_lt.mp hlt)
      · obtain rfl := Std.LawfulEqOrd.eq_of_compare heq
        exact .cons (ih hlt)

theorem sorted_statistics (statistics : ScrapeStatistics) : Sorted (statisticsValue statistics) := by
  have hkeys : [keyText "complete", keyText "downloaded", keyText "incomplete"].Pairwise (· < ·) := by
    decide
  refine .dict hkeys ?_
  simp only [List.forall_mem_cons]
  exact ⟨.integer _, .integer _, .integer _, List.forall_mem_nil _⟩

/-- The info hashes are in order. -/
theorem sorted_scrape (response : ScrapeResponse) : Sorted (scrapeValue response) := by
  have hfiles : Sorted (.dict (response.files.toList.map fileEntry)) := by
    constructor
    · rw [List.map_map, List.pairwise_map]
      apply Std.TreeMap.ordered_keys_toList.imp
      intro file other h
      have hbytes : compare file.1.bytes other.1.bytes = .lt := h
      rw [Vector.compare_eq_compare_toList] at hbytes
      exact lt_of_compare hbytes
    · intro entry hentry
      obtain ⟨file, -, rfl⟩ := List.mem_map.mp hentry
      exact sorted_statistics file.2
  refine .dict (List.pairwise_singleton _ _) ?_
  simp only [List.forall_mem_cons]
  exact ⟨hfiles, List.forall_mem_nil _⟩

theorem toList_ofList_toList (files : Std.TreeMap InfoHash ScrapeStatistics) :
    (Std.TreeMap.ofList files.toList).toList = files.toList := by
  apply Std.TreeMap.Equiv.toList_eq
  apply Std.TreeMap.Equiv.of_forall_constGet?_eq
  intro infoHash
  cases hfile : files[infoHash]? with
  | none =>
    apply Std.TreeMap.getElem?_ofList_of_contains_eq_false
    rw [← Bool.not_eq_true, List.contains_iff_mem]
    intro hmem
    obtain ⟨file, hin, rfl⟩ := List.mem_map.mp hmem
    rw [Std.TreeMap.mem_toList_iff_getElem?_eq_some, hfile] at hin
    cases hin
  | some statistics =>
    exact Std.TreeMap.getElem?_ofList_of_mem Std.ReflCmp.compare_self
      Std.TreeMap.distinct_keys_toList
      (Std.TreeMap.mem_toList_iff_getElem?_eq_some.mpr hfile)

theorem readScrape_scrapeValue (response : ScrapeResponse) :
    readAnnounce (scrapeValue response) = none ∧ ∃ response',
      readScrape (scrapeValue response) = some response' ∧
        response'.files.toList = response.files.toList := by
  have hfiles : ∀ files : List (InfoHash × ScrapeStatistics),
      (files.map fileEntry).mapM readFile = some files := by
    intro files
    induction files with
    | nil => rfl
    | cons file files ih =>
      have hfile : readFile (fileEntry file) = some file := by
        rw [readFile, fileEntry, readInfoHash_toList, readStatistics_value]
        rfl
      rw [List.map_cons, List.mapM_cons, hfile, ih]
      rfl
  refine ⟨by simp [readAnnounce, scrapeValue, field, List.lookup_cons, keyText_beq],
    ⟨Std.TreeMap.ofList response.files.toList⟩, ?_, toList_ofList_toList _⟩
  simp [readScrape, scrapeValue, field, readFiles, hfiles]

/-- What is said of the files when the downloads are left out. -/
def withoutDownloads (response : ScrapeResponse) : ScrapeResponse :=
  ⟨response.files.map fun _ statistics => { statistics with downloaded := 0 }⟩

theorem toList_withoutDownloads (response : ScrapeResponse) :
    (withoutDownloads response).files.toList = response.files.toList.map
      fun file => (file.1, { file.2 with downloaded := 0 }) :=
  Std.TreeMap.toList_map

theorem scrapeValue_withoutDownloads_iff (response : ScrapeResponse) :
    scrapeValue (withoutDownloads response) = scrapeValue response ↔
      ∀ file ∈ response.files.toList, file.2.downloaded = 0 := by
  have hentry : ∀ file : InfoHash × ScrapeStatistics,
      fileEntry (file.1, { file.2 with downloaded := 0 }) = fileEntry file ↔
        file.2.downloaded = 0 := by
    intro file
    simp [fileEntry, statisticsValue, countValue, eq_comm]
  rw [scrapeValue, scrapeValue, toList_withoutDownloads, List.map_map]
  simp only [Value.dict.injEq, List.cons.injEq, Prod.mk.injEq, true_and, and_true,
    List.map_inj_left]
  exact forall₂_congr fun file _ => hentry file

/-- What is written for one file. -/
def filePieces (file : InfoHash × ScrapeStatistics) : List (List UInt8) :=
  [utf8 "20:".toList, file.1.bytes.toList, utf8 "d8:completei".toList, itoa file.2.complete,
    utf8 "e10:downloadedi0e10:incompletei".toList, itoa file.2.incomplete, utf8 "ee".toList]

theorem scrapePieces_eq (response : ScrapeResponse) :
    ScrapeResponse.pieces response =
      utf8 "d5:filesd".toList :: response.files.toList.flatMap filePieces ++ [utf8 "ee".toList] :=
  rfl

theorem flatten_filePieces (files : List (InfoHash × ScrapeStatistics)) :
    (files.flatMap filePieces).flatten =
      encodeEntries (files.map fun file => fileEntry (file.1, { file.2 with downloaded := 0 })) := by
  have hliterals : utf8 "20:".toList = digits 20 ++ [0x3a] ∧
      utf8 "d8:completei".toList = 0x64 :: (encodeText (keyText "complete") ++ [0x69]) ∧
      utf8 "e10:downloadedi0e10:incompletei".toList = 0x65 :: (encodeText (keyText "downloaded") ++
        0x69 :: (digits 0 ++ 0x65 :: (encodeText (keyText "incomplete") ++ [0x69]))) ∧
      utf8 "ee".toList = [0x65, 0x65] := by decide
  obtain ⟨htwenty, hcomplete, hincomplete, hend⟩ := hliterals
  induction files with
  | nil => rfl
  | cons file files ih =>
    rw [List.flatMap_cons, List.flatten_append, ih, List.map_cons, filePieces]
    simp only [List.flatten_cons, List.flatten_nil, List.append_nil, htwenty, hcomplete,
      hincomplete, hend, itoa_eq]
    simp [fileEntry, statisticsValue, countValue, encode, encodeEntries, encodeText, encodeInt]

theorem flatten_scrape (response : ScrapeResponse) :
    (ScrapeResponse.pieces response).flatten =
      encode (scrapeValue (withoutDownloads response)) := by
  have hbegin : utf8 "d5:filesd".toList = 0x64 :: (encodeText (keyText "files") ++ [0x64]) := by
    decide
  have hend : utf8 "ee".toList = [0x65, 0x65] := by decide
  rw [scrapePieces_eq, scrapeValue, List.flatten_append, List.flatten_cons, flatten_filePieces,
    toList_withoutDownloads, List.map_map, hbegin, hend]
  simp [encode, encodeEntries, Function.comp_def]

theorem integers_scrape {response : ScrapeResponse} (h : (Response.scrape response).InRange) :
    integersAll fitsI64 (scrapeValue response) = true := by
  have hfiles : ∀ files : List (InfoHash × ScrapeStatistics),
      (∀ file ∈ files, file ∈ response.files.toList) →
        integersAllEntries fitsI64 (files.map fileEntry) = true := by
    intro files
    induction files with
    | nil => exact fun _ => rfl
    | cons file files ih =>
      intro hmem
      obtain ⟨hfile, hmem⟩ := List.forall_mem_cons.mp hmem
      obtain ⟨hcomplete, hincomplete, hdownloaded⟩ := h file hfile
      rw [List.map_cons, fileEntry, integersAllEntries, ih hmem]
      simp [statisticsValue, countValue, integersAll, integersAllEntries, fitsI64_natCast hcomplete,
        fitsI64_natCast hincomplete, fitsI64_natCast hdownloaded]
  simp [scrapeValue, integersAll, integersAllEntries, hfiles _ fun _ => id]

/-- The bytes that are written stand for all of the response and for no other value, all
fields are in it, and it is read from them if its counters can be. -/
structure ScrapeFaithful (fromBytes : List UInt8 → Option Value) (response : ScrapeResponse) :
    Prop where
  sorted : Sorted (scrapeValue response)
  written : ∀ output, writeToVec (ScrapeResponse.pieces response) output =
    ((encode (scrapeValue response)).length, output ++ encode (scrapeValue response))
  decoded : ∀ value, encode value = (writeToVec (ScrapeResponse.pieces response) []).2 →
    ∃ response', Response.ofValue value = some (.scrape response') ∧
      response'.files.toList = response.files.toList
  read : (Response.scrape response).InRange → ∃ response', Response.parseBytes fromBytes
    (writeToVec (ScrapeResponse.pieces response) []).2 = some (.scrape response') ∧
      response'.files.toList = response.files.toList

theorem ofValue_scrapeValue (response : ScrapeResponse) :
    ∃ response', Response.ofValue (scrapeValue response) = some (.scrape response') ∧
      response'.files.toList = response.files.toList := by
  obtain ⟨hannounce, response', hread, hfiles⟩ := readScrape_scrapeValue response
  refine ⟨response', ?_, hfiles⟩
  rw [Response.ofValue, hannounce, hread]
  rfl

theorem scrapeFaithful_iff {fromBytes : List UInt8 → Option Value}
    (hfrom : ReadsCanonical fromBytes) (response : ScrapeResponse) :
    ScrapeFaithful fromBytes response ↔ ∀ file ∈ response.files.toList, file.2.downloaded = 0 := by
  rw [← scrapeValue_withoutDownloads_iff]
  constructor
  · intro h
    have hwritten := congrArg Prod.snd (h.written [])
    rw [writeToVec_eq, flatten_scrape] at hwritten
    exact encode_injective hwritten
  · intro h
    have hwritten : ∀ output, writeToVec (ScrapeResponse.pieces response) output =
        ((encode (scrapeValue response)).length, output ++ encode (scrapeValue response)) := by
      intro output
      rw [writeToVec_eq, flatten_scrape, h]
    refine ⟨sorted_scrape response, hwritten, ?_, ?_⟩
    · intro value hvalue
      rw [hwritten, List.nil_append] at hvalue
      rw [encode_injective hvalue]
      exact ofValue_scrapeValue response
    · intro hrange
      rw [hwritten, List.nil_append, Response.parseBytes,
        hfrom _ (sorted_scrape response) (integers_scrape hrange)]
      exact ofValue_scrapeValue response

/-- The torrents of an answer that have been downloaded to the end. -/
theorem handleScrapeRequest_downloaded {I : Type} {config : Config} {m : TorrentMap I}
    {request : ScrapeRequest} {response : ScrapeResponse}
    (h : m.handleScrapeRequest config request = some response) :
    (∀ file ∈ response.files.toList, file.2.downloaded = 0) ↔
      ∀ infoHash ∈ request.infoHashes.take config.protocol.maxScrapeTorrents, ∀ d,
        m.torrents.get infoHash = some d → d.completedCount = 0 := by
  obtain ⟨files, hfold, heq⟩ := Option.bind_eq_some_iff.mp h
  cases heq
  have htake : request.infoHashes.take
      (min request.infoHashes.length config.protocol.maxScrapeTorrents) =
      request.infoHashes.take config.protocol.maxScrapeTorrents := by
    rw [Nat.min_comm, ← List.take_eq_take_min]
  rw [htake] at hfold
  have hfile : ∀ infoHash statistics, files[infoHash]? = some statistics ↔
      infoHash ∈ request.infoHashes.take config.protocol.maxScrapeTorrents ∧
        m.scrapeOne infoHash = some statistics := by
    intro infoHash statistics
    rw [(getElem?_of_foldlM hfold infoHash).1]
    split
    · simp_all
    · simp_all
  simp only [Prod.forall, Std.TreeMap.mem_toList_iff_getElem?_eq_some, hfile]
  constructor
  · intro h infoHash hmem d hd
    obtain ⟨statistics, hone⟩ :=
      Option.isSome_iff_exists.mp ((getElem?_of_foldlM hfold infoHash).2 hmem)
    have hzero := h infoHash statistics ⟨hmem, hone⟩
    rw [TorrentMap.scrapeOne, hd] at hone
    obtain ⟨counts, -, heq⟩ := Option.bind_eq_some_iff.mp hone
    cases heq
    exact UInt64.toNat_inj.mp hzero
  · rintro h infoHash statistics ⟨hmem, hone⟩
    rw [TorrentMap.scrapeOne] at hone
    cases hd : m.torrents.get infoHash with
    | none =>
      rw [hd] at hone
      cases hone
      rfl
    | some d =>
      rw [hd] at hone
      obtain ⟨counts, -, heq⟩ := Option.bind_eq_some_iff.mp hone
      cases heq
      rw [u64ToUsizeChecked, h infoHash hmem d hd]
      rfl

/-- When all of a response is written, and when all that a storage has to say is. -/
structure DownloadsLeftOut (fromBytes : List UInt8 → Option Value) (response : ScrapeResponse) :
    Prop where
  written : ScrapeFaithful fromBytes response ↔
    ∀ file ∈ response.files.toList, file.2.downloaded = 0
  stored : ∀ {I : Type} (config : Config) (m : TorrentMap I) (request : ScrapeRequest),
    m.handleScrapeRequest config request = some response →
      (ScrapeFaithful fromBytes response ↔
        ∀ infoHash ∈ request.infoHashes.take config.protocol.maxScrapeTorrents, ∀ d,
          m.torrents.get infoHash = some d → d.completedCount = 0)

theorem scrape_downloads_left_out (fromBytes : List UInt8 → Option Value)
    (hfrom : ReadsCanonical fromBytes) (response : ScrapeResponse) :
    DownloadsLeftOut fromBytes response where
  written := scrapeFaithful_iff hfrom response
  stored _ _ _ h := (scrapeFaithful_iff hfrom response).trans (handleScrapeRequest_downloaded h)

/-- One torrent, and how often it has been downloaded. -/
def oneSeeder (downloaded : Nat) : ScrapeResponse :=
  ⟨Std.TreeMap.insert ∅ ⟨.replicate 20 0x61⟩ ⟨1, 0, downloaded⟩⟩

theorem scrape_downloads_left_out_oneSeeder :
    ScrapeFaithful decodeI64 (oneSeeder 0) ∧ ¬ ScrapeFaithful decodeI64 (oneSeeder 7) := by
  have hleftOut := scrape_downloads_left_out decodeI64 readsCanonical_decodeI64
  rw [(hleftOut _).written, (hleftOut _).written]
  decide

theorem not_scrapeFaithful_downloadedOnce : ¬ ScrapeFaithful decodeI64 (oneSeeder 1) := by
  rw [scrapeFaithful_iff readsCanonical_decodeI64]
  decide

end Aquatic.HttpProtocol
