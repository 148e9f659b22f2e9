import InfraGraph.Json.Record
import InfraGraph.Text.Utf8

/-!
The settings of the API, with their defaults and their reading from JSON. Sections and fields may be
left out but not be null.
-/

namespace InfraGraph

open Json (Document)

structure PageSettings where
  defaultSize : Int
  maxSize : Int
  deriving DecidableEq, Repr

/-- The delay of a batch in milliseconds, and how many keys it may hold. -/
structure LoaderSettings where
  delay : Nat
  maxBatch : Nat
  deriving DecidableEq, Repr

structure FeedSettings where
  buffer : Nat
  deriving DecidableEq, Repr

structure Settings where
  pages : PageSettings
  loaders : LoaderSettings
  feeds : FeedSettings
  deriving DecidableEq, Repr

def PageSettings.standard : PageSettings := ⟨20, 100⟩

def LoaderSettings.standard : LoaderSettings := ⟨1, 100⟩

def LoaderSettings.delayMicros (s : LoaderSettings) : Nat :=
  s.delay * 1000

def FeedSettings.standard : FeedSettings := ⟨32⟩

namespace Settings

def standard : Settings := ⟨.standard, .standard, .standard⟩

def word32? (d : Document) : Option Int :=
  d.intWithin? (-2147483648) 2147483647

def natural64? (d : Document) : Option Nat :=
  (d.intWithin? 0 18446744073709551615).map Int.toNat

def pages? (d : Document) : Option PageSettings := do
  match ← d.fields? ["default_page_size", "max_page_size"] .partly with
  | [size, max] =>
      let size ← Document.orElse? PageSettings.standard.defaultSize word32? size
      let max ← Document.orElse? PageSettings.standard.maxSize word32? max
      some ⟨size, max⟩
  | _ => none

def loaders? (d : Document) : Option LoaderSettings := do
  match ← d.fields? ["batch_delay_ms", "max_batch_size"] .partly with
  | [delay, max] =>
      let delay ← Document.orElse? LoaderSettings.standard.delay natural64? delay
      let max ← Document.orElse? LoaderSettings.standard.maxBatch natural64? max
      some ⟨delay, max⟩
  | _ => none

def feeds? (d : Document) : Option FeedSettings := do
  match ← d.fields? ["buffer_size"] .partly with
  | [buffer] =>
      let buffer ← Document.orElse? FeedSettings.standard.buffer natural64? buffer
      some ⟨buffer⟩
  | _ => none

def ofDocument? (d : Document) : Option Settings := do
  match ← d.fields? ["pagination", "loaders", "subscriptions"] .partly with
  | [pages, loaders, feeds] =>
      let pages ← Document.orElse? .standard pages? pages
      let loaders ← Document.orElse? .standard loaders? loaders
      let feeds ← Document.orElse? .standard feeds? feeds
      some ⟨pages, loaders, feeds⟩
  | _ => none

def read? (text : String) : Option Settings :=
  (Document.ofBytes? (Text.utf8 text)).bind ofDocument?

end Settings

end InfraGraph
