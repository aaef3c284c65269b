import PageWatch.Config.File
import PageWatch.Document.Json
import PageWatch.Host.InMemory
import PageWatch.Paging
import PageWatch.PublicError
import PageWatch.Select.Meaning
import PageWatch.Session
import PageWatch.Proofs.Stages
import PageWatch.Proofs.Compiled
import PageWatch.Proofs.Validated
import PageWatch.Proofs.Authority
import PageWatch.Proofs.Place
import PageWatch.Proofs.Reading
import PageWatch.Proofs.Seek
import PageWatch.Proofs.Fetch
import PageWatch.Proofs.Stability
import PageWatch.Proofs.Exactness
import PageWatch.Proofs.Tables
import PageWatch.Proofs.Terms
import PageWatch.Proofs.Wanted
import PageWatch.Proofs.Columns
import PageWatch.Proofs.Course
import PageWatch.Proofs.Effects
import PageWatch.Proofs.Hiding
import PageWatch.Proofs.Confinement
import PageWatch.Proofs.Targets
import PageWatch.Proofs.Cutting
import PageWatch.Proofs.Ownership
import PageWatch.Proofs.Lending
import PageWatch.Proofs.Listing
import PageWatch.Proofs.Intervals
import PageWatch.Proofs.Resumption
import PageWatch.Proofs.Duality
import PageWatch.Proofs.Coherence
import PageWatch.Proofs.Numerals
import PageWatch.Proofs.Checks
import PageWatch.Proofs.Hooks
import PageWatch.Proofs.Obstacles
import PageWatch.Proofs.Repetition
import PageWatch.Proofs.ReadBack
import PageWatch.Proofs.Requests
import PageWatch.Proofs.Prefixes
import PageWatch.Proofs.Views
import PageWatch.Proofs.WrittenPages
