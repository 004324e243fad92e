import Dwarfs.Except
import Dwarfs.Filter.Regex
import Dwarfs.Filter.Rule
import Dwarfs.Filter.Glob
import Dwarfs.Filter.Action
import Dwarfs.Filter.Merge
import Dwarfs.Filter.EntryFilter
import Dwarfs.Lzma.Basic
import Dwarfs.Lzma.StreamSize
import Dwarfs.Lzma.Decompress
import Dwarfs.Lzma.Compress
import Dwarfs.Lzma.Options
import Dwarfs.Ricepp.CpuVariant
import Dwarfs.Tool.Universal
import Dwarfs.Tool.Dwarfsck
